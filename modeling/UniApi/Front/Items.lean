/-
**The items of a payload, each with its place.**

A payload has items in fixed places: `item`, the members of `input` and `output`, and those of
`response.output`. `changeItems` changes the items where they stand and nothing else.

* `placedItems_changeItems`: the changed payload has the changed items, in the same places;
* `changeItems_changeItems`, `changeItems_congr`: changes compose, and only what they do to the items
  that are there counts;
* `places_nodup`: no two items have one place.
-/

import Mathlib.Data.List.Nodup
import UniApi.Front.JsonPaths

namespace UniApi.Front

open UniApi.Lib

/-! ### Members -/

namespace JsonMap

theorem get_modify_self (map : JsonMap) (key : Bytes) (change : Value → Value) :
    (map.modify key change).get key = (map.get key).map change := by
  induction map with
  | nil => rfl
  | cons entry rest ih =>
    obtain ⟨name, old⟩ := entry
    unfold modify
    by_cases same : key = name
    · rw [if_pos same, get, get, List.lookup_cons, List.lookup_cons, beq_iff_eq.mpr same]
      rfl
    · rw [if_neg same, get, get, List.lookup_cons, List.lookup_cons, beq_false_of_ne same]
      exact ih

theorem get_modify_of_ne (map : JsonMap) {key other : Bytes} (differ : other ≠ key)
    (change : Value → Value) : (map.modify key change).get other = map.get other := by
  induction map with
  | nil => rfl
  | cons entry rest ih =>
    obtain ⟨name, old⟩ := entry
    unfold modify
    by_cases same : key = name
    · rw [if_pos same, get, get, List.lookup_cons, List.lookup_cons,
        beq_false_of_ne fun equal => differ (equal.trans same.symm)]
    · rw [if_neg same, get, get, List.lookup_cons, List.lookup_cons]
      cases other == name with
      | true => rfl
      | false => exact ih

theorem modify_congr {map : JsonMap} {key : Bytes} {first second : Value → Value}
    (alike : ∀ value, map.get key = some value → first value = second value) :
    map.modify key first = map.modify key second := by
  induction map with
  | nil => rfl
  | cons entry rest ih =>
    obtain ⟨name, old⟩ := entry
    unfold modify
    by_cases same : key = name
    · rw [if_pos same, if_pos same, alike old (by rw [get, List.lookup_cons, beq_iff_eq.mpr same])]
    · rw [if_neg same, if_neg same, ih fun value found => alike value ?_]
      rw [get, List.lookup_cons, beq_false_of_ne same]
      exact found

theorem modify_comm (map : JsonMap) {first second : Bytes} (differ : first ≠ second)
    (change other : Value → Value) :
    (map.modify first change).modify second other = (map.modify second other).modify first change := by
  induction map with
  | nil => rfl
  | cons entry rest ih =>
    obtain ⟨name, old⟩ := entry
    by_cases isFirst : first = name
    · have notSecond : second ≠ name := fun same => differ (isFirst.trans same.symm)
      rw [modify, if_pos isFirst, modify, if_neg notSecond, modify, if_neg notSecond, modify,
        if_pos isFirst]
    · by_cases isSecond : second = name
      · rw [modify, if_neg isFirst, modify, if_pos isSecond, modify, if_pos isSecond, modify,
          if_neg isFirst]
      · rw [modify, if_neg isFirst, modify, if_neg isSecond, modify, if_neg isSecond, modify,
          if_neg isFirst, ih]

theorem getStr_insert_self (map : JsonMap) (key text : Bytes) :
    (map.insert key (.string text)).getStr key = some text := by
  rw [getStr, get_insert_self]
  rfl

end JsonMap

/-! ### Places -/

/-- Where an item stands. -/
inductive Place where
  | item
  | input (index : Nat)
  | output (index : Nat)
  | responseOutput (index : Nat)
  deriving DecidableEq

/-- The objects of an array member, with their indices. -/
def placedObjects (place : Nat → Place) (value : Option Value) : List (Place × JsonMap) :=
  match value with
  | some (.array items) =>
    items.zipIdx.filterMap fun entry => entry.1.asObject.map (place entry.2, ·)
  | _ => []

/-- The items of a payload with their places. -/
def placedItems (root : JsonMap) : List (Place × JsonMap) :=
  (((root.get (Utf8.lit "item")).bind Value.asObject).map (Place.item, ·)).toList ++
    placedObjects .input (root.get (Utf8.lit "input")) ++
    placedObjects .output (root.get (Utf8.lit "output")) ++
    placedObjects .responseOutput ((root.get (Utf8.lit "response")).bind (·.get (Utf8.lit "output")))

/-- A change of the objects of an array, by their indices. -/
def onIndexed (change : Nat → JsonMap → JsonMap) : Value → Value
  | .array items => .array (items.mapIdx fun index => onObject (change index))
  | value => value

/-- A change of the items of a payload, by their places. -/
def changeItems (change : Place → JsonMap → JsonMap) (root : JsonMap) : JsonMap :=
  ((((root.modify (Utf8.lit "item") (onObject (change .item))).modify (Utf8.lit "input")
    (onIndexed fun index => change (.input index))).modify (Utf8.lit "output")
      (onIndexed fun index => change (.output index))).modify (Utf8.lit "response")
        (onObject (·.modify (Utf8.lit "output") (onIndexed fun index => change (.responseOutput index)))))

theorem holders_distinct : [Utf8.lit "item", Utf8.lit "input", Utf8.lit "output",
    Utf8.lit "response"].Nodup := by
  decide

/-! ### Changes of the items -/

section Changes

variable (change other : Place → JsonMap → JsonMap)

/-- An item, changed where it stands. -/
abbrev changed (located : Place × JsonMap) : Place × JsonMap :=
  (located.1, change located.1 located.2)

theorem onObject_comp (first second : JsonMap → JsonMap) :
    onObject second ∘ onObject first = onObject fun item => second (first item) := by
  funext value
  cases value <;> rfl

theorem onIndexed_comp (first second : Nat → JsonMap → JsonMap) :
    onIndexed second ∘ onIndexed first = onIndexed fun index item => second index (first index item) := by
  funext value
  cases value with
  | array items =>
    refine congrArg Value.array ?_
    rw [List.mapIdx_mapIdx]
    exact congrArg (fun change => items.mapIdx change)
      (funext fun index => onObject_comp (first index) (second index))
  | null | bool | number | string | object => rfl

theorem placedObjects_onIndexed (place : Nat → Place) (value : Option Value) :
    placedObjects place (value.map (onIndexed fun index => change (place index))) =
      (placedObjects place value).map (changed change) := by
  have located : ∀ (items : List Value) (start : Nat),
      ((items.mapIdx fun index => onObject (change (place (index + start)))).zipIdx start).filterMap
          (fun entry => entry.1.asObject.map (place entry.2, ·)) =
        ((items.zipIdx start).filterMap fun entry => entry.1.asObject.map (place entry.2, ·)).map
          (changed change) := by
    intro items
    induction items with
    | nil => exact fun _ => rfl
    | cons value rest ih =>
      intro start
      have later := ih (start + 1)
      rw [List.mapIdx_cons, List.zipIdx_cons, List.zipIdx_cons, List.filterMap_cons, List.filterMap_cons,
        Nat.zero_add]
      simp only [Nat.add_assoc, Nat.add_comm 1 start]
      cases value with
      | object members => exact congrArg (_ :: ·) later
      | null | bool | number | string | array => exact later
  cases value with
  | none => rfl
  | some value =>
    cases value with
    | array items => exact located items 0
    | null | bool | number | string | object => rfl

theorem get_onObject_modify (value : Option Value) (key : Bytes) (onMember : Value → Value) :
    (value.map (onObject (·.modify key onMember))).bind (·.get key) =
      (value.bind (·.get key)).map onMember := by
  cases value with
  | none => rfl
  | some value =>
    cases value with
    | object members => exact JsonMap.get_modify_self members key onMember
    | null | bool | number | string | array => rfl

/-- **The items of a changed payload** are the changed items, in their places. -/
theorem placedItems_changeItems (root : JsonMap) :
    placedItems (changeItems change root) = (placedItems root).map (changed change) := by
  have distinct := holders_distinct
  simp only [List.nodup_cons, List.mem_cons, List.not_mem_nil, or_false, not_or] at distinct
  obtain ⟨⟨itemInput, itemOutput, itemResponse⟩, ⟨inputOutput, inputResponse⟩, outputResponse, -⟩ :=
    distinct
  have atItem : (changeItems change root).get (Utf8.lit "item") =
      (root.get (Utf8.lit "item")).map (onObject (change .item)) := by
    rw [changeItems, JsonMap.get_modify_of_ne _ itemResponse, JsonMap.get_modify_of_ne _ itemOutput,
      JsonMap.get_modify_of_ne _ itemInput, JsonMap.get_modify_self]
  have atInput : (changeItems change root).get (Utf8.lit "input") =
      (root.get (Utf8.lit "input")).map (onIndexed fun index => change (.input index)) := by
    rw [changeItems, JsonMap.get_modify_of_ne _ inputResponse, JsonMap.get_modify_of_ne _ inputOutput,
      JsonMap.get_modify_self, JsonMap.get_modify_of_ne _ (Ne.symm itemInput)]
  have atOutput : (changeItems change root).get (Utf8.lit "output") =
      (root.get (Utf8.lit "output")).map (onIndexed fun index => change (.output index)) := by
    rw [changeItems, JsonMap.get_modify_of_ne _ outputResponse, JsonMap.get_modify_self,
      JsonMap.get_modify_of_ne _ (Ne.symm inputOutput), JsonMap.get_modify_of_ne _ (Ne.symm itemOutput)]
  have atResponse : (changeItems change root).get (Utf8.lit "response") =
      (root.get (Utf8.lit "response")).map (onObject (·.modify (Utf8.lit "output")
        (onIndexed fun index => change (.responseOutput index)))) := by
    rw [changeItems, JsonMap.get_modify_self, JsonMap.get_modify_of_ne _ (Ne.symm outputResponse),
      JsonMap.get_modify_of_ne _ (Ne.symm inputResponse),
      JsonMap.get_modify_of_ne _ (Ne.symm itemResponse)]
  rw [placedItems, placedItems, atItem, atInput, atOutput, atResponse, get_onObject_modify,
    placedObjects_onIndexed change .input, placedObjects_onIndexed change .output,
    placedObjects_onIndexed change .responseOutput, List.map_append, List.map_append, List.map_append]
  cases root.get (Utf8.lit "item") with
  | none => rfl
  | some value => cases value <;> rfl

theorem get_changeItems (root : JsonMap) {key : Bytes}
    (apart : key ∉ [Utf8.lit "item", Utf8.lit "input", Utf8.lit "output", Utf8.lit "response"]) :
    (changeItems change root).get key = root.get key := by
  simp only [List.mem_cons, List.not_mem_nil, or_false, not_or] at apart
  obtain ⟨notItem, notInput, notOutput, notResponse⟩ := apart
  rw [changeItems, JsonMap.get_modify_of_ne _ notResponse, JsonMap.get_modify_of_ne _ notOutput,
    JsonMap.get_modify_of_ne _ notInput, JsonMap.get_modify_of_ne _ notItem]

theorem changeItems_changeItems (root : JsonMap) :
    changeItems other (changeItems change root) =
      changeItems (fun place item => other place (change place item)) root := by
  have distinct := holders_distinct
  simp only [List.nodup_cons, List.mem_cons, List.not_mem_nil, or_false, not_or] at distinct
  obtain ⟨⟨itemInput, itemOutput, itemResponse⟩, ⟨inputOutput, inputResponse⟩, outputResponse, -⟩ :=
    distinct
  have nested : (onObject (·.modify (Utf8.lit "output") (onIndexed fun index =>
        other (.responseOutput index)))) ∘ (onObject (·.modify (Utf8.lit "output")
          (onIndexed fun index => change (.responseOutput index)))) =
      onObject (·.modify (Utf8.lit "output") (onIndexed fun index item =>
        other (.responseOutput index) (change (.responseOutput index) item))) := by
    rw [onObject_comp]
    refine congrArg onObject (funext fun members => ?_)
    rw [JsonMap.modify_modify, onIndexed_comp]
  -- Each change of the second round moves in front of the later ones of the first.
  rw [changeItems, changeItems, JsonMap.modify_comm _ (Ne.symm itemResponse),
    JsonMap.modify_comm _ (Ne.symm itemOutput), JsonMap.modify_comm _ (Ne.symm itemInput),
    JsonMap.modify_modify, JsonMap.modify_comm _ (Ne.symm inputResponse),
    JsonMap.modify_comm _ (Ne.symm inputOutput), JsonMap.modify_modify,
    JsonMap.modify_comm _ (Ne.symm outputResponse), JsonMap.modify_modify, JsonMap.modify_modify,
    changeItems, nested, onObject_comp, onIndexed_comp, onIndexed_comp]

/-- Only what a change does to the items that are there counts. -/
theorem changeItems_congr {root : JsonMap}
    (alike : ∀ located ∈ placedItems root, change located.1 located.2 = other located.1 located.2) :
    changeItems change root = changeItems other root := by
  have distinct := holders_distinct
  simp only [List.nodup_cons, List.mem_cons, List.not_mem_nil, or_false, not_or] at distinct
  obtain ⟨⟨itemInput, itemOutput, itemResponse⟩, ⟨inputOutput, inputResponse⟩, outputResponse, -⟩ :=
    distinct
  have within : ∀ (place : Nat → Place) (value : Value),
      (∀ located ∈ placedObjects place (some value),
        change located.1 located.2 = other located.1 located.2) →
      onIndexed (fun index => change (place index)) value =
        onIndexed (fun index => other (place index)) value := by
    intro place value each
    cases value with
    | array items =>
      refine congrArg Value.array (List.ext_getElem? fun index => ?_)
      rw [List.getElem?_mapIdx, List.getElem?_mapIdx]
      cases found : items[index]? with
      | none => rfl
      | some value =>
        cases value with
        | object members =>
          refine congrArg (fun item => some (Value.object item)) (each (place index, members) ?_)
          refine List.mem_filterMap.mpr ⟨(.object members, index), ?_, rfl⟩
          exact List.mem_zipIdx_iff_getElem?.mpr found
        | null | bool | number | string | array => rfl
    | null | bool | number | string | object => rfl
  unfold placedItems at alike
  simp only [List.mem_append] at alike
  have atItem : root.modify (Utf8.lit "item") (onObject (change .item)) =
      root.modify (Utf8.lit "item") (onObject (other .item)) := by
    refine JsonMap.modify_congr fun value found => ?_
    cases value with
    | object members =>
      refine congrArg Value.object (alike (.item, members) (.inl (.inl (.inl ?_))))
      rw [found]
      exact List.mem_singleton_self _
    | null | bool | number | string | array => rfl
  have atInput : ∀ before : JsonMap, before.get (Utf8.lit "input") = root.get (Utf8.lit "input") →
      before.modify (Utf8.lit "input") (onIndexed fun index => change (.input index)) =
        before.modify (Utf8.lit "input") (onIndexed fun index => other (.input index)) := by
    refine fun before same => JsonMap.modify_congr fun value found => within .input value ?_
    exact fun located there => alike located (.inl (.inl (.inr ((same.symm.trans found) ▸ there))))
  have atOutput : ∀ before : JsonMap, before.get (Utf8.lit "output") = root.get (Utf8.lit "output") →
      before.modify (Utf8.lit "output") (onIndexed fun index => change (.output index)) =
        before.modify (Utf8.lit "output") (onIndexed fun index => other (.output index)) := by
    refine fun before same => JsonMap.modify_congr fun value found => within .output value ?_
    exact fun located there => alike located (.inl (.inr ((same.symm.trans found) ▸ there)))
  have atResponse : ∀ before : JsonMap,
      before.get (Utf8.lit "response") = root.get (Utf8.lit "response") →
      before.modify (Utf8.lit "response") (onObject (·.modify (Utf8.lit "output")
          (onIndexed fun index => change (.responseOutput index)))) =
        before.modify (Utf8.lit "response") (onObject (·.modify (Utf8.lit "output")
          (onIndexed fun index => other (.responseOutput index)))) := by
    refine fun before same => JsonMap.modify_congr fun value found => ?_
    rw [same] at found
    cases value with
    | object members =>
      refine congrArg Value.object (JsonMap.modify_congr fun value isOutput =>
        within .responseOutput value fun located there => alike located (.inr ?_))
      have output : (root.get (Utf8.lit "response")).bind (·.get (Utf8.lit "output")) = some value := by
        rw [found]
        exact isOutput
      rw [output]
      exact there
    | null | bool | number | string | array => rfl
  rw [changeItems, changeItems, atItem, atInput, atOutput, atResponse]
  · rw [JsonMap.get_modify_of_ne _ (Ne.symm outputResponse),
      JsonMap.get_modify_of_ne _ (Ne.symm inputResponse),
      JsonMap.get_modify_of_ne _ (Ne.symm itemResponse)]
  · rw [JsonMap.get_modify_of_ne _ (Ne.symm inputOutput),
      JsonMap.get_modify_of_ne _ (Ne.symm itemOutput)]
  · rw [JsonMap.get_modify_of_ne _ (Ne.symm itemInput)]

/-- A change that leaves the items as they are leaves the payload as it is. -/
theorem changeItems_id (root : JsonMap) : changeItems (fun _ item => item) root = root := by
  have object : (onObject fun item => item) = id := by
    funext value
    cases value <;> rfl
  have indexed : (onIndexed fun _ item => item) = id := by
    funext value
    cases value with
    | array items =>
      refine congrArg Value.array ((congrArg (fun change => items.mapIdx fun _ => change) object).trans ?_)
      exact List.mapIdx_eq_iff.mpr fun _ => Option.map_id'.symm
    | null | bool | number | string | object => rfl
  have kept : ∀ (map : JsonMap) (key : Bytes), map.modify key id = map := by
    intro map key
    cases found : map.get key with
    | none => exact JsonMap.modify_of_absent found id
    | some value => exact JsonMap.modify_of_same found rfl
  have nested : (onObject (·.modify (Utf8.lit "output") id)) = id :=
    (congrArg onObject (funext fun members => kept members _)).trans object
  rw [changeItems, object, indexed, nested, kept, kept, kept, kept]

theorem visitItemsMut_eq (visit : JsonMap → JsonMap) (root : JsonMap) :
    visitItemsMut visit root = changeItems (fun _ => visit) root := by
  have array : onArray visit = onIndexed fun _ => visit := by
    funext value
    cases value with
    | array items => exact congrArg Value.array (List.mapIdx_eq_iff.mpr fun index => by
        rw [List.getElem?_map]).symm
    | null | bool | number | string | object => rfl
  rw [visitItemsMut, changeItems, array]

theorem placedItems_insert (root : JsonMap) {key : Bytes} (value : Value)
    (apart : key ∉ [Utf8.lit "item", Utf8.lit "input", Utf8.lit "output", Utf8.lit "response"]) :
    placedItems (root.insert key value) = placedItems root := by
  simp only [List.mem_cons, List.not_mem_nil, or_false, not_or] at apart
  obtain ⟨notItem, notInput, notOutput, notResponse⟩ := apart
  rw [placedItems, JsonMap.get_insert_of_ne _ (Ne.symm notItem),
    JsonMap.get_insert_of_ne _ (Ne.symm notInput), JsonMap.get_insert_of_ne _ (Ne.symm notOutput),
    JsonMap.get_insert_of_ne _ (Ne.symm notResponse), placedItems]

theorem mem_placedObjects {place : Nat → Place} {value : Option Value} {located : Place × JsonMap}
    (there : located ∈ placedObjects place value) : ∃ index, located.1 = place index := by
  cases value with
  | none => cases there
  | some value =>
    cases value with
    | array items =>
      obtain ⟨⟨value, index⟩, -, found⟩ := List.mem_filterMap.mp there
      obtain ⟨members, -, rfl⟩ := Option.map_eq_some_iff.mp found
      exact ⟨index, rfl⟩
    | null | bool | number | string | object => cases there

theorem placedObjects_nodup {place : Nat → Place} (injective : Function.Injective place)
    (value : Option Value) : ((placedObjects place value).map Prod.fst).Nodup := by
  have all : ∀ (items : List Value) (start : Nat), ((items.zipIdx start).filterMap fun entry =>
      entry.1.asObject.map (place entry.2, ·)).Pairwise fun first second => first.1 ≠ second.1 := by
    intro items
    induction items with
    | nil => exact fun _ => .nil
    | cons value rest ih =>
      intro start
      have later := ih (start + 1)
      rw [List.zipIdx_cons, List.filterMap_cons]
      cases value with
      | object members =>
        refine .cons (fun located there => ?_) later
        obtain ⟨⟨value, index⟩, isEntry, found⟩ := List.mem_filterMap.mp there
        obtain ⟨members, -, rfl⟩ := Option.map_eq_some_iff.mp found
        have after := List.le_snd_of_mem_zipIdx isEntry
        exact fun same => absurd (injective same) (by dsimp only at after ⊢; omega)
      | null | bool | number | string | array => exact later
  cases value with
  | none => exact List.nodup_nil
  | some value =>
    cases value with
    | array items => exact List.pairwise_map.mpr (all items 0)
    | null | bool | number | string | object => exact List.nodup_nil

/-- **No two items have one place.** -/
theorem places_nodup (root : JsonMap) : ((placedItems root).map Prod.fst).Nodup := by
  have input : Function.Injective Place.input := fun _ _ => Place.input.inj
  have output : Function.Injective Place.output := fun _ _ => Place.output.inj
  have response : Function.Injective Place.responseOutput := fun _ _ => Place.responseOutput.inj
  have direct : (((((root.get (Utf8.lit "item")).bind Value.asObject).map (Place.item, ·)).toList).map
      Prod.fst).Nodup := by
    cases (root.get (Utf8.lit "item")).bind Value.asObject with
    | none => exact List.nodup_nil
    | some members => exact List.nodup_singleton _
  have isDirect : ∀ place ∈ ((((root.get (Utf8.lit "item")).bind Value.asObject).map
      (Place.item, ·)).toList).map Prod.fst, place = .item := by
    cases (root.get (Utf8.lit "item")).bind Value.asObject with
    | none => exact fun _ there => absurd there List.not_mem_nil
    | some members => exact fun _ there => List.mem_singleton.mp there
  have inArray : ∀ {place : Nat → Place} {value : Option Value},
      ∀ found ∈ (placedObjects place value).map Prod.fst, ∃ index, found = place index := by
    intro place value found there
    obtain ⟨located, isLocated, rfl⟩ := List.mem_map.mp there
    exact mem_placedObjects isLocated
  rw [placedItems, List.map_append, List.map_append, List.map_append]
  refine List.nodup_append.mpr ⟨List.nodup_append.mpr ⟨List.nodup_append.mpr
    ⟨direct, placedObjects_nodup input _, ?_⟩, placedObjects_nodup output _, ?_⟩,
    placedObjects_nodup response _, ?_⟩
  · intro first isFirst second isSecond same
    obtain ⟨index, rfl⟩ := inArray second isSecond
    cases (isDirect first isFirst).symm.trans same
  · intro first isFirst second isSecond same
    obtain ⟨index, rfl⟩ := inArray second isSecond
    rcases List.mem_append.mp isFirst with isFirst | isFirst
    · cases (isDirect first isFirst).symm.trans same
    · obtain ⟨index, rfl⟩ := inArray first isFirst
      cases same
  · intro first isFirst second isSecond same
    obtain ⟨index, rfl⟩ := inArray second isSecond
    rcases List.mem_append.mp isFirst with isFirst | isFirst
    · rcases List.mem_append.mp isFirst with isFirst | isFirst
      · cases (isDirect first isFirst).symm.trans same
      · obtain ⟨index, rfl⟩ := inArray first isFirst
        cases same
    · obtain ⟨index, rfl⟩ := inArray first isFirst
      cases same

theorem item_of_place {root : JsonMap} {first second : Place × JsonMap} (isFirst : first ∈ placedItems root)
    (isSecond : second ∈ placedItems root) (same : first.1 = second.1) : first = second :=
  List.inj_on_of_nodup_map (places_nodup root) isFirst isSecond same

theorem placedItems_items (root : JsonMap) : (placedItems root).map Prod.snd = itemLocations root := by
  have objects : ∀ (place : Nat → Place) (value : Option Value),
      (placedObjects place value).map Prod.snd = arrayObjects value := by
    intro place value
    cases value with
    | none => rfl
    | some value =>
      cases value with
      | array items =>
        have all : ∀ (items : List Value) (start : Nat), ((items.zipIdx start).filterMap fun entry =>
            entry.1.asObject.map (place entry.2, ·)).map Prod.snd = items.filterMap Value.asObject := by
          intro items
          induction items with
          | nil => exact fun _ => rfl
          | cons value rest ih =>
            intro start
            have later := ih (start + 1)
            rw [List.zipIdx_cons, List.filterMap_cons, List.filterMap_cons]
            cases value with
            | object members => exact congrArg (members :: ·) later
            | null | bool | number | string | array => exact later
        exact all items 0
      | null | bool | number | string | object => rfl
  rw [placedItems, List.map_append, List.map_append, List.map_append, objects, objects, objects,
    itemLocations]
  cases (root.get (Utf8.lit "item")).bind Value.asObject <;> rfl

end Changes

/-- An item with an ID and a type. -/
def itemNamed (itemId itemType : String) : Value :=
  .object [(Utf8.lit "id", .string (Utf8.lit itemId)), (Utf8.lit "type", .string (Utf8.lit itemType))]

/-- No digest is taken of an ID of letters and digits around one underscore. -/
def noDigest : Serde where
  fromStr := fun _ => none
  toString := fun _ => none
  sha256Hex := fun _ => []

end UniApi.Front
