/-
**Cleaning a Gemini payload: `process_tool_parameters` and `_strip_gemini_unsupported_fields`.**

Both go through everything, whether a key is a keyword there or a name. What they should leave alone is said
with the place of a value: a schema, a map of names to schemas, or data.

* `cleanAt`: the clean-up that knows the places;
* `processToolParameters_eq_iff`: when the source does the same;
* `removeKeyRecursive_eq_iff`, `follow_removeKeyRecursive`: what loses a key;
* `cleanup_keeps_iff`: both.
-/

import UniApi.Lib.Dict
import UniApi.Lib.PyTree

namespace UniApi.Providers.GeminiCleanup

open UniApi.Lib
open UniApi.Lib.PyData (lit Members Meets)

/-! ### The source -/

section Source

-- the text of a value in an f-string
variable (format : PyData → PyText)

/-- What is done with the members of an object, of which the values may be processed: the text of
the new description is of the values as they were. -/
def cleanNode (original members : Members) : Members :=
  let kept := members.filter fun member => member.1 != "additionalProperties"
  match original.lookup "default" with
  | none => kept
  | some default =>
    let description := (original.lookup "description").getD (lit "")
    Dict.setEntries "description" (.str (format description ++ Utf8.points "\nDefault: " ++ format default))
      (kept.filter fun member => member.1 != "default")

mutual

/-- `process_tool_parameters`. The recursion leaves texts alone, so the values may be processed
first. -/
def processToolParameters : PyData → PyData
  | .dict members => .dict (cleanNode format members (processMembers members))
  | .list items => .list (processItems items)
  | value => value

def processItems : List PyData → List PyData
  | [] => []
  | item :: items => processToolParameters item :: processItems items

def processMembers : Members → Members
  | [] => []
  | (name, value) :: members => (name, processToolParameters value) :: processMembers members

end

end Source

mutual

/-- `_remove_key_recursive`. -/
def removeKeyRecursive (key : String) : PyData → PyData
  | .dict members => .dict (removeMembers key members)
  | .list items => .list (removeItems key items)
  | value => value

def removeItems (key : String) : List PyData → List PyData
  | [] => []
  | item :: items => removeKeyRecursive key item :: removeItems key items

def removeMembers (key : String) : Members → Members
  | [] => []
  | (name, value) :: members =>
    if name = key then removeMembers key members
    else (name, removeKeyRecursive key value) :: removeMembers key members

end

/-- `_strip_gemini_unsupported_fields`. -/
def stripGeminiUnsupportedFields (payload : PyData) : PyData :=
    removeKeyRecursive "reasoning_content" payload

/-- `_gemini_function_call_part`, with the arguments that were parsed. -/
def geminiFunctionCallPart (name args : PyData) (thoughtSignature : Option PyText) : PyData :=
  let functionCall := ("functionCall", .dict [("name", name), ("args", args)])
  match thoughtSignature with
  | some (letter :: signature) => .dict [functionCall, ("thoughtSignature", .str (letter :: signature))]
  | _ => .dict [functionCall]

/-- `_gemini_function_response_message`. -/
def geminiFunctionResponseMessage (functionCallName result : PyData) : PyData :=
  .dict [("role", lit "function"), ("parts", .list [.dict [("functionResponse",
    .dict [("name", functionCallName), ("response",
      .dict [("name", functionCallName), ("content", .dict [("result", result)])])])]])]

/-! ### Places -/

/-- The place of a value in a schema. -/
inductive Place where
  | schema
  | names
  | data
  deriving DecidableEq

section Places

-- the place of the value of a keyword
variable (kind : String → Place)

/-- The place of a value of an object. -/
def Place.member (place : Place) (name : String) : Place :=
  match place with
  | schema => kind name
  | names => schema
  | data => data

/-- The place of an item of a list. -/
def Place.item : Place → Place
  | schema => schema
  | _ => data

variable (format : PyData → PyText)

mutual

/-- **The clean-up that knows the places**: a schema loses `additionalProperties`, and its `default`
is moved to the description. -/
def cleanAt (place : Place) : PyData → PyData
  | .dict members =>
    let cleaned := cleanMembers place members
    .dict (if place = .schema then cleanNode format members cleaned else cleaned)
  | .list items => .list (cleanItems place items)
  | value => value

def cleanItems (place : Place) : List PyData → List PyData
  | [] => []
  | item :: items => cleanAt place.item item :: cleanItems place items

def cleanMembers (place : Place) : Members → Members
  | [] => []
  | (name, value) :: members => (name, cleanAt (place.member kind name) value) :: cleanMembers place members

end

/-- The members that are visited at a place. -/
def visited (place : Place) (members : Members) : Members :=
  if place = .schema then cleanNode format members members else members

/-- **No name is taken for a keyword**: outside of schemas no object has a key that the source
removes. -/
inductive NoKeywords : Place → PyData → Prop
  | leaf {place : Place} (value : PyData) (noItems : value.asList = none)
    (noMembers : value.asDict = none) :
    NoKeywords place value
  | list {place : Place} {items : List PyData} (each : ∀ item ∈ items, NoKeywords place.item item) :
    NoKeywords place (.list items)
  | dict {place : Place} {members : Members}
    (noKeyword : place ≠ .schema → ∀ member ∈ members, member.1 ≠ "additionalProperties"
      ∧ member.1 ≠ "default")
    (each : ∀ member ∈ visited format place members, NoKeywords (place.member kind member.1) member.2) :
    NoKeywords place (.dict members)

end Places

/-! ### The two clean-ups -/

section Clean

variable {kind : String → Place} {format : PyData → PyText}

theorem processItems_eq (items : List PyData) : processItems format items = items.map
    (processToolParameters format) := by
  induction items with
  | nil => rfl
  | cons item items ih => rw [processItems, ih, List.map_cons]

theorem processMembers_eq (members : Members) : processMembers format members
    = members.map fun member => (member.1, processToolParameters format member.2) := by
  induction members with
  | nil => rfl
  | cons member members ih => rw [processMembers, ih, List.map_cons]

theorem cleanItems_eq (place : Place) (items : List PyData) :
    cleanItems kind format place items = items.map (cleanAt kind format place.item) := by
  induction items with
  | nil => rfl
  | cons item items ih => rw [cleanItems, ih, List.map_cons]

theorem cleanMembers_eq (place : Place) (members : Members) : cleanMembers kind format place members
    = members.map fun member => (member.1, cleanAt kind format (place.member kind member.1) member.2) := by
  induction members with
  | nil => rfl
  | cons member members ih => rw [cleanMembers, ih, List.map_cons]

theorem setEntries_map (image : String → PyData → PyData) (key : String) (value : PyData)
    (members : Members) :
    Dict.setEntries key (image key value) (members.map fun member => (member.1, image member.1 member.2))
      = (Dict.setEntries key value members).map fun member => (member.1, image member.1 member.2) := by
  induction members with
  | nil => rfl
  | cons member members ih =>
    rw [List.map_cons, Dict.setEntries, Dict.setEntries, ih]
    split_ifs <;> rfl

/-- What is done with the members of an object may be done before or after their values are visited. -/
theorem cleanNode_map {image : String → PyData → PyData}
    (texts : ∀ name text, image name (.str text) = .str text)
    (original members : Members) :
    cleanNode format original (members.map fun member => (member.1, image member.1 member.2))
      = (cleanNode format original members).map fun member => (member.1, image member.1 member.2) := by
  have filters (keep : String → Bool) (members : Members) :
      (members.map fun member => (member.1, image member.1 member.2)).filter (fun member => keep member.1)
        = (members.filter fun member => keep member.1).map fun member =>
          (member.1, image member.1 member.2) := by
    rw [List.filter_map]
    rfl
  rw [cleanNode, cleanNode, filters (· != "additionalProperties")]
  cases original.lookup "default" with
  | none => rfl
  | some default =>
    dsimp only
    rw [filters (· != "default"), ← setEntries_map, texts]

/-- **The source**: the keyword is dropped, the default is moved, and then the values are processed. -/
theorem processToolParameters_dict (members : Members) : processToolParameters format (.dict members)
    = .dict ((cleanNode format members members).map fun member =>
      (member.1, processToolParameters format member.2)) := by
  rw [processToolParameters, processMembers_eq,
    @cleanNode_map format (fun _ => processToolParameters format) fun _ _ => rfl]

theorem cleanAt_dict (place : Place) (members : Members) : cleanAt kind format place (.dict members)
    = .dict ((visited format place members).map fun member =>
        (member.1, cleanAt kind format (place.member kind member.1) member.2)) := by
  rw [cleanAt, visited, cleanMembers_eq]
  split_ifs
  · rw [@cleanNode_map format (fun name => cleanAt kind format (place.member kind name)) fun _ _ => rfl]
  · rfl

theorem processToolParameters_list (items : List PyData) : processToolParameters format (.list items)
    = .list (items.map (processToolParameters format)) := by
  rw [processToolParameters, processItems_eq]

theorem cleanAt_list (place : Place) (items : List PyData) : cleanAt kind format place (.list items)
    = .list (items.map (cleanAt kind format place.item)) := by
  rw [cleanAt, cleanItems_eq]

theorem mem_setEntries {key : String} {value : PyData} {members : Members} {member : String × PyData}
    (among : member ∈ Dict.setEntries key value members) : member = (key, value) ∨ member ∈ members := by
  induction members with
  | nil => exact .inl (List.mem_singleton.mp among)
  | cons first members ih =>
    rw [Dict.setEntries] at among
    split_ifs at among
    · exact (List.mem_cons.mp among).imp_right (List.mem_cons_of_mem first)
    · rcases List.mem_cons.mp among with rfl | later
      · exact .inr List.mem_cons_self
      · exact (ih later).imp_right (List.mem_cons_of_mem first)

/-- A member of a schema is a member that was there, or the new description. -/
theorem mem_cleanNode {members : Members} {member : String × PyData}
    (among : member ∈ cleanNode format members members) : member ∈ members ∨ ∃ text, member.2
      = .str text := by
  rw [cleanNode] at among
  cases found : members.lookup "default" with
  | none =>
    rw [found] at among
    exact .inl (List.mem_of_mem_filter among)
  | some default =>
    rw [found] at among
    rcases mem_setEntries among with rfl | kept
    · exact .inr ⟨_, rfl⟩
    · exact .inl (List.mem_of_mem_filter (List.mem_of_mem_filter kept))

theorem cleanNode_names {members : Members} {name : String}
    (among : name ∈ (cleanNode format members members).map Prod.fst) :
    name ≠ "additionalProperties" ∧ name ≠ "default" := by
  rw [cleanNode] at among
  cases found : members.lookup "default" with
  | none =>
    rw [found] at among
    obtain ⟨member, kept, rfl⟩ := List.mem_map.mp among
    rw [List.mem_filter, bne_iff_ne] at kept
    refine ⟨kept.2, fun same => ?_⟩
    have absent := List.lookup_eq_none_iff.mp found member kept.1
    rw [same] at absent
    cases absent
  | some default =>
    rw [found] at among
    rcases Dict.mem_keys_setEntries.mp among with rfl | kept
    · exact ⟨by decide, by decide⟩
    · obtain ⟨member, kept', rfl⟩ := List.mem_map.mp kept
      rw [List.mem_filter, List.mem_filter, bne_iff_ne, bne_iff_ne] at kept'
      exact ⟨kept'.1.2, kept'.2⟩

theorem cleanNode_self {members : Members}
    (noKeyword : ∀ member ∈ members, member.1 ≠ "additionalProperties" ∧ member.1 ≠ "default") :
    cleanNode format members members = members := by
  have absent : members.lookup "default" = none := by
    rw [List.lookup_eq_none_iff]
    exact fun member among => bne_iff_ne.mpr (noKeyword member among).2.symm
  rw [cleanNode, absent]
  exact List.filter_eq_self.mpr fun member among => bne_iff_ne.mpr (noKeyword member among).1

theorem noKeywords_dict {place : Place} {members : Members} : NoKeywords kind format place (.dict members) ↔
    (place ≠ .schema → ∀ member ∈ members, member.1 ≠ "additionalProperties" ∧ member.1 ≠ "default") ∧
      ∀ member ∈ visited format place members, NoKeywords kind format
        (place.member kind member.1) member.2 := by
  constructor
  · intro noKeywords
    cases noKeywords with
    | leaf _ _ noMembers => cases noMembers
    | dict noKeyword each => exact ⟨noKeyword, each⟩
  · exact fun both => .dict both.1 both.2

theorem noKeywords_list {place : Place} {items : List PyData} : NoKeywords kind format place (.list items) ↔
    ∀ item ∈ items, NoKeywords kind format place.item item := by
  constructor
  · intro noKeywords
    cases noKeywords with
    | leaf _ noItems => cases noItems
    | list each => exact each
  · exact .list

/-- **The source does what the places ask for** just when no name is taken for a keyword. -/
theorem processToolParameters_eq_iff (value : PyData) : ∀ place : Place,
    processToolParameters format value = cleanAt kind format place value
      ↔ NoKeywords kind format place value := by
  induction value using PyData.induct with
  | onLeaf value noItems noMembers =>
    intro place
    refine iff_of_true ?_ (.leaf value noItems noMembers)
    cases value with
    | list items => cases noItems
    | dict members => cases noMembers
    | _ => rfl
  | onList items ih =>
    intro place
    rw [processToolParameters_list, cleanAt_list, PyData.list.injEq, List.map_inj_left, noKeywords_list]
    exact forall₂_congr fun item among => ih item among place.item
  | onDict members ih =>
    intro place
    -- the values that are visited at a place
    have each {shown : Members} (known : ∀ member ∈ shown, member ∈ members ∨ ∃ text, member.2
        = .str text) :
        (shown.map fun member => (member.1, processToolParameters format member.2))
            = (shown.map fun member => (member.1, cleanAt kind format
              (place.member kind member.1) member.2)) ↔
          ∀ member ∈ shown, NoKeywords kind format (place.member kind member.1) member.2 := by
      rw [List.map_inj_left]
      refine forall₂_congr fun member among => ?_
      rw [Prod.mk.injEq, eq_self_iff_true, true_and]
      rcases known member among with isMember | ⟨text, isText⟩
      · exact ih member isMember _
      · rw [isText]
        exact iff_of_true rfl (.leaf (.str text) rfl rfl)
    rw [processToolParameters_dict, cleanAt_dict, PyData.dict.injEq, noKeywords_dict]
    by_cases isSchema : place = .schema
    · rw [visited, if_pos isSchema, each fun member => mem_cleanNode]
      exact ⟨fun all => ⟨fun other => absurd isSchema other, all⟩, And.right⟩
    · rw [visited, if_neg isSchema]
      constructor
      · intro same
        have noKeyword : ∀ member ∈ members, member.1 ≠ "additionalProperties" ∧ member.1 ≠ "default" := by
          intro member among
          have names := congrArg (List.map Prod.fst) same
          rw [List.map_map, List.map_map] at names
          have isName : member.1 ∈ (cleanNode format members members).map Prod.fst := by
            refine names ▸ ?_
            exact List.mem_map_of_mem among
          exact cleanNode_names isName
        rw [cleanNode_self noKeyword] at same
        exact ⟨fun _ => noKeyword, (each fun member => .inl).mp same⟩
      · rintro ⟨noKeyword, all⟩
        rw [cleanNode_self (noKeyword isSchema)]
        exact (each fun member => .inl).mpr all

end Clean

/-! ### Removing a key -/

section Remove

variable {key : String}

theorem removeItems_eq (items : List PyData) : removeItems key items = items.map
    (removeKeyRecursive key) := by
  induction items with
  | nil => rfl
  | cons item items ih => rw [removeItems, ih, List.map_cons]

/-- There is no such key. -/
def NoKey (key : String) : PyData → Prop :=
  Meets (fun _ => true) fun members => ∀ member ∈ members, member.1 ≠ key

theorem removeMembers_length (members : Members) : (removeMembers key members).length ≤ members.length := by
  induction members with
  | nil => exact le_rfl
  | cons member members ih =>
    rw [removeMembers]
    split_ifs
    · exact ih.trans (Nat.le_succ _)
    · exact Nat.succ_le_succ ih

theorem removeMembers_eq_self_iff {members : Members} : removeMembers key members = members ↔
    ∀ member ∈ members, member.1 ≠ key ∧ removeKeyRecursive key member.2 = member.2 := by
  induction members with
  | nil => exact iff_of_true rfl fun _ among => absurd among List.not_mem_nil
  | cons member members ih =>
    obtain ⟨name, value⟩ := member
    rw [removeMembers, List.forall_mem_cons, ← ih]
    by_cases isKey : name = key
    · rw [if_pos isKey]
      refine iff_of_false (fun same => ?_) fun both => both.1.1 isKey
      have fewer := @removeMembers_length key members
      rw [same] at fewer
      exact absurd fewer (Nat.not_succ_le_self _)
    · rw [if_neg isKey, List.cons.injEq, Prod.mk.injEq]
      exact ⟨fun both => ⟨⟨isKey, both.1.2⟩, both.2⟩, fun both => ⟨⟨rfl, both.1.2⟩, both.2⟩⟩

/-- **What has no such key is left as it is**, and nothing else is. -/
theorem removeKeyRecursive_eq_iff (value : PyData) : removeKeyRecursive key value = value
    ↔ NoKey key value := by
  induction value using PyData.induct with
  | onLeaf value noItems noMembers =>
    refine iff_of_true ?_ (PyData.meets_leaf noItems noMembers)
    cases value with
    | list items => cases noItems
    | dict members => cases noMembers
    | _ => rfl
  | onList items ih =>
    rw [removeKeyRecursive, PyData.list.injEq, removeItems_eq, NoKey, PyData.meets_list]
    have each : items.map (removeKeyRecursive key) = items ↔
        ∀ item ∈ items, removeKeyRecursive key item = item := by
      rw [← List.map_inj_left (g := fun item => item), List.map_id']
    rw [each]
    exact forall₂_congr ih
  | onDict members ih =>
    rw [removeKeyRecursive, PyData.dict.injEq, removeMembers_eq_self_iff, NoKey, PyData.meets_dict]
    constructor
    · exact fun all => ⟨fun member among => (all member among).1,
        fun _ member among => (ih member among).mp (all member among).2⟩
    · exact fun both member among => ⟨both.1 member among, (ih member among).mpr (both.2 rfl member among)⟩

theorem lookup_removeMembers {name : String} (notKey : name ≠ key) (members : Members) :
    (removeMembers key members).lookup name = (members.lookup name).map (removeKeyRecursive key) := by
  induction members with
  | nil => rfl
  | cons member members ih =>
    obtain ⟨other, value⟩ := member
    rw [removeMembers]
    by_cases isKey : other = key
    · rw [if_pos isKey, ih, List.lookup_cons, beq_eq_false_iff_ne.mpr (isKey ▸ notKey)]
    · rw [if_neg isKey, List.lookup_cons, List.lookup_cons, ih]
      cases name == other <;> rfl

theorem part_removeKeyRecursive {step : PyKey} (notKey : step ≠ .name key) (value : PyData) :
    (removeKeyRecursive key value).part step = (value.part step).map (removeKeyRecursive key) := by
  cases value with
  | dict members =>
    cases step with
    | name name => exact lookup_removeMembers (fun same => notKey (congrArg _ same)) members
    | index index => rfl
  | list items =>
    cases step with
    | name name => rfl
    | index index =>
      rw [removeKeyRecursive, removeItems_eq, PyData.part, PyData.part, List.length_map]
      split_ifs
      · exact List.getElem?_map
      · exact List.getElem?_map
      · rfl
  | _ => rfl

/-- **What is left where keys lead** is what is left of what was there. -/
theorem follow_removeKeyRecursive {path : List PyKey} (notKey : ∀ step ∈ path, step ≠ .name key) :
    ∀ value : PyData,
      (removeKeyRecursive key value).follow path = (value.follow path).map (removeKeyRecursive key) := by
  induction path with
  | nil => exact fun value => rfl
  | cons step path ih =>
    intro value
    have later := ih fun other among => notKey other (List.mem_cons_of_mem step among)
    rw [PyData.follow, PyData.follow, part_removeKeyRecursive (notKey step List.mem_cons_self),
      Option.bind_map,
      Option.map_bind]
    apply congrArg
    funext part
    exact later part

end Remove

/-! ### What users gave -/

/-- Where a payload has what a user gave: the arguments of the calls, and the contents of the
responses. -/
inductive IsUserPath : List PyKey → Prop
  | args (message part : ℕ) :
    IsUserPath ["contents", .index message, "parts", .index part, "functionCall", "args"]
  | content (message part : ℕ) :
    IsUserPath ["contents", .index message, "parts", .index part, "functionResponse", "response", "content"]

theorem IsUserPath.notKey {path : List PyKey} (isUserPath : IsUserPath path) :
    ∀ step ∈ path, step ≠ .name "reasoning_content" := by
  cases isUserPath <;> simp

/-- The payload keeps what users gave. -/
def KeepsUserData (payload : PyData) : Prop :=
  ∀ path, IsUserPath path → ∀ value, payload.follow path = some value →
    (stripGeminiUnsupportedFields payload).follow path = some value

theorem keepsUserData_iff (payload : PyData) : KeepsUserData payload ↔ ∀ path, IsUserPath path → ∀ value,
    payload.follow path = some value → NoKey "reasoning_content" value := by
  refine forall₂_congr fun path isUserPath => forall₂_congr fun value found => ?_
  rw [stripGeminiUnsupportedFields, follow_removeKeyRecursive isUserPath.notKey, found, Option.map_some,
    Option.some_inj, removeKeyRecursive_eq_iff]

/-- **The clean-ups keep what is no keyword of theirs** just when no name in a schema is taken for a
keyword, and no user gave the key that is removed. -/
theorem cleanup_keeps_iff (kind : String → Place) (format : PyData → PyText) (schema payload : PyData) :
    (processToolParameters format schema = cleanAt kind format .schema schema
      ↔ NoKeywords kind format .schema schema) ∧
      (KeepsUserData payload ↔ ∀ path, IsUserPath path → ∀ value, payload.follow path = some value →
        NoKey "reasoning_content" value) :=
  ⟨processToolParameters_eq_iff schema .schema, keepsUserData_iff payload⟩

/-! A property called `default` is lost, and so is an argument called `reasoning_content`. -/

/-- The places of the keywords of JSON Schema. -/
def jsonSchema (keyword : String) : Place :=
  if ["properties", "patternProperties", "$defs", "definitions",
    "dependentSchemas"].contains keyword then .names
  else if ["items", "prefixItems", "additionalItems", "contains", "unevaluatedItems",
    "unevaluatedProperties",
    "propertyNames", "not", "allOf", "anyOf", "oneOf", "if", "then", "else"].contains keyword then .schema
  else .data

/-- An object with one property. -/
def objectSchema (property : String) : PyData :=
    .dict [("type", lit "object"), ("additionalProperties", .bool false),
  ("properties", .dict [(property, .dict [("type", lit "string")])])]

/-- A payload with one call. -/
def callPayload (argument : String) : PyData := .dict [("contents", .list [.dict [("role", lit "model"),
  ("parts", .list [geminiFunctionCallPart (lit "find") (.dict [(argument, lit "x")]) none])]])]

/-- What users gave in the payload are the arguments of its call. -/
theorem callPayload_user {argument : String} {path : List PyKey} {value : PyData}
    (isUserPath : IsUserPath path)
    (found : (callPayload argument).follow path = some value) : value = .dict [(argument, lit "x")] := by
  cases isUserPath with
  | args message part =>
    cases message with
    | zero =>
      cases part with
      | zero => exact (Option.some.inj found).symm
      | succ part => cases found
    | succ message => cases found
  | content message part =>
    cases message with
    | zero =>
      cases part with
      | zero => cases found
      | succ part => cases found
    | succ message => cases found

theorem cleanup_keeps_iff_query : processToolParameters (fun _ => []) (objectSchema "query")
      = cleanAt jsonSchema (fun _ => []) .schema (objectSchema "query") ∧ KeepsUserData
        (callPayload "query") := by
  obtain ⟨cleans, keeps⟩ := cleanup_keeps_iff jsonSchema (fun _ => []) (objectSchema "query")
    (callPayload "query")
  refine ⟨cleans.mpr ?_, keeps.mpr fun path isUserPath value found => ?_⟩
  · have leaf (name : String) (place : Place) : NoKeywords jsonSchema (fun _ => []) place (lit name) :=
      .leaf (lit name) rfl rfl
    refine .dict (fun other => absurd rfl other) fun member among => ?_
    rcases List.mem_cons.mp among with rfl | among
    · exact leaf "object" _
    rw [List.mem_singleton.mp among]
    refine .dict (fun _ member among => ?_) fun member among => ?_
    · rw [List.mem_singleton.mp among]
      exact ⟨by decide, by decide⟩
    · rw [List.mem_singleton.mp among]
      refine .dict (fun other => absurd rfl other) fun member among => ?_
      rw [List.mem_singleton.mp among]
      exact leaf "string" _
  · rw [callPayload_user isUserPath found]
    refine ⟨fun member among => ?_, fun _ => ⟨trivial, trivial⟩⟩
    rw [List.mem_singleton.mp among]
    decide

theorem default_property_lost : processToolParameters (fun _ => []) (objectSchema "default")
      ≠ cleanAt jsonSchema (fun _ => []) .schema (objectSchema "default") ∧
    ¬ KeepsUserData (callPayload "reasoning_content") := by
  constructor
  · intro same
    obtain ⟨-, each⟩ := noKeywords_dict.mp ((processToolParameters_eq_iff _ _).mp same)
    have properties := each ("properties", .dict [("default", .dict [("type", lit "string")])])
      (List.mem_cons_of_mem _ List.mem_cons_self)
    exact ((noKeywords_dict.mp properties).1 (by decide) _ List.mem_cons_self).2 rfl
  · intro keeps
    have kept := keeps _ (.args 0 0) _ rfl
    cases kept

end UniApi.Providers.GeminiCleanup
