/-
**`ResponsesItemIdNormalizer`: item IDs renamed along a stream.**

The normaliser gives items the ID prefix of their type, remembers the renaming, and applies it to every
later reference. A payload is looked at in fixed places: `item`, `input`, `output`, `response.output` and
`item_id`.
-/

import UniApi.Front.Json

namespace UniApi.Front

open UniApi.Lib

/-! ### IDs -/

/-- `MAX_ITEM_ID_LENGTH`. -/
def maxItemIdLength : Nat := 64

/-- `HASHED_ITEM_ID_HEX_LENGTH`. -/
def hashedItemIdHexLength : Nat := 40

/-- `b'_'`. -/
abbrev underscore : UInt8 := 95

/-- `item_prefix`. -/
def itemPrefix (itemType : Bytes) : Option Bytes :=
  if itemType = Utf8.lit "message" then some (Utf8.lit "msg")
  else if itemType = Utf8.lit "reasoning" then some (Utf8.lit "rs")
  else if itemType = Utf8.lit "function_call" then some (Utf8.lit "fc")
  else if itemType = Utf8.lit "function_call_output" then some (Utf8.lit "fco")
  else if itemType = Utf8.lit "custom_tool_call" then some (Utf8.lit "ctc")
  else if itemType = Utf8.lit "custom_tool_call_output" then some (Utf8.lit "ctco")
  else none

/-- `event_prefix_bytes`. -/
def eventPrefixBytes (eventType : Bytes) : Option Bytes :=
  if eventType ∈ [Utf8.lit "response.output_text.delta", Utf8.lit "response.output_text.done"] then
    some (Utf8.lit "msg_")
  else if eventType ∈ [Utf8.lit "response.reasoning_summary_text.delta",
      Utf8.lit "response.reasoning_summary_text.done", Utf8.lit "response.reasoning_text.delta",
      Utf8.lit "response.reasoning_text.done"] then some (Utf8.lit "rs_")
  else if eventType ∈ [Utf8.lit "response.function_call_arguments.delta",
      Utf8.lit "response.function_call_arguments.done"] then some (Utf8.lit "fc_")
  else if eventType ∈ [Utf8.lit "response.custom_tool_call_input.delta",
      Utf8.lit "response.custom_tool_call_input.done"] then some (Utf8.lit "ctc_")
  else none

/-- `event_prefix`: without the underscores at the end. -/
def eventPrefix (eventType : Bytes) : Option Bytes :=
  (eventPrefixBytes eventType).map fun start =>
    (start.reverse.dropWhile (· = underscore)).reverse

/-- `event_item_id_needs_normalization`. -/
def eventItemIdNeedsNormalization (eventType itemId : Bytes) : Bool :=
  match eventPrefixBytes eventType with
  | none => false
  | some start =>
    match stripPrefix start itemId with
    | none => true
    | some rest =>
      decide (maxItemIdLength < itemId.length) || rest.isEmpty || !rest.all isAsciiAlphanumeric

/-- `split_once('_')`: what follows the first underscore. -/
def afterUnderscore (text : Bytes) : Option Bytes :=
  match text.dropWhile (· ≠ underscore) with
  | [] => none
  | _ :: rest => some rest

/-- An ID suffix that may stay. -/
def plainSuffix (text : Bytes) : Bool := !text.isEmpty && text.all isAsciiAlphanumeric

/-- `normalized_id`: another ID with the prefix, unless the ID is fine. -/
def normalizedId (serde : Serde) (original idPrefix : Bytes) : Option Bytes :=
  let canonicalPrefix := idPrefix ++ [underscore]
  let hashed := canonicalPrefix ++ (serde.sha256Hex original).take hashedItemIdHexLength
  let fine := (stripPrefix canonicalPrefix original).any fun rest =>
    plainSuffix rest && decide (original.length ≤ maxItemIdLength)
  if fine then none
  else
    match afterUnderscore original with
    | none => some hashed
    | some rest =>
      let candidate := canonicalPrefix ++ rest
      if plainSuffix rest && decide (candidate.length ≤ maxItemIdLength) then
        if candidate ≠ original then some candidate else none
      else some hashed

/-! ### Places -/

/-- The objects of an array member. -/
def arrayObjects (value : Option Value) : List JsonMap :=
  match value with
  | some (.array items) => items.filterMap Value.asObject
  | _ => []

/-- `item_locations`. -/
def itemLocations (root : JsonMap) : List JsonMap :=
  ((root.get (Utf8.lit "item")).bind Value.asObject).toList ++
    arrayObjects (root.get (Utf8.lit "input")) ++ arrayObjects (root.get (Utf8.lit "output")) ++
    arrayObjects ((root.get (Utf8.lit "response")).bind (·.get (Utf8.lit "output")))

/-- `get_mut` on a member. -/
def JsonMap.modify (key : Bytes) (change : Value → Value) : JsonMap → JsonMap
  | [] => []
  | (name, value) :: rest =>
    if key = name then (name, change value) :: rest else (name, value) :: modify key change rest

/-- A change of an object. -/
def onObject (visit : JsonMap → JsonMap) : Value → Value
  | .object members => .object (visit members)
  | value => value

/-- A change of the objects of an array. -/
def onArray (visit : JsonMap → JsonMap) : Value → Value
  | .array items => .array (items.map (onObject visit))
  | value => value

/-- `visit_items_mut`. -/
def visitItemsMut (visit : JsonMap → JsonMap) (root : JsonMap) : JsonMap :=
  ((((root.modify (Utf8.lit "item") (onObject visit)).modify (Utf8.lit "input") (onArray visit)).modify
    (Utf8.lit "output") (onArray visit)).modify (Utf8.lit "response")
      (onObject (·.modify (Utf8.lit "output") (onArray visit))))

/-- `item.get("id").and_then(Value::as_str)`. -/
def JsonMap.getStr (map : JsonMap) (key : Bytes) : Option Bytes := (map.get key).bind Value.asStr

/-- `collect_item_ids`. -/
def collectItemIds (root : JsonMap) : List Bytes :=
  (itemLocations root).filterMap (·.getStr (Utf8.lit "id"))

/-! ### The normaliser -/

structure ResponsesItemIdNormalizer where
  idMap : List (Bytes × Bytes)
  seenIds : List Bytes

namespace ResponsesItemIdNormalizer

/-- `default`. -/
def fresh : ResponsesItemIdNormalizer := ⟨[], []⟩

/-- What one payload registers: the renamings, and who asked for each new ID. -/
structure Pending where
  renamed : List (Bytes × Bytes)
  targetOwners : List (Bytes × Bytes)

variable (serde : Serde) (normalizer : ResponsesItemIdNormalizer)

/-- The renaming of an ID: of this payload, or of an earlier one. -/
def renamedTo (pending : Pending) (original : Bytes) : Option Bytes :=
  (pending.renamed.lookup original).or (normalizer.idMap.lookup original)

/-- `register_pending`. -/
def registerPending (existing : List Bytes) (original normalized : Bytes) (pending : Pending) :
    Except ProtocolError Pending :=
  match normalizer.renamedTo pending original with
  | some prior =>
    if prior ≠ normalized then
      .error (.text "Responses item ID normalization produced an inconsistent mapping")
    else .ok pending
  | none =>
    if normalized ≠ original ∧ normalized ∈ existing then
      .error (.text "Responses item ID normalization would collide with an existing item ID")
    else if (pending.targetOwners.lookup normalized).any (· ≠ original) then
      .error (.text
        "Responses item ID normalization would collide with another normalized item ID")
    else if normalized ∈ normalizer.seenIds ∧ normalizer.idMap.lookup original ≠ some normalized then
      .error (.text "Responses item ID normalization would collide with a prior stream item ID")
    else .ok {
      renamed := (original, normalized) :: pending.renamed
      targetOwners := (normalized, original) :: pending.targetOwners }

/-- The ID an item should have, if it should have another one. -/
def itemTarget (item : JsonMap) : Option (Bytes × Bytes) := do
  let original ← item.getStr (Utf8.lit "id")
  let idPrefix ← (item.getStr (Utf8.lit "type")).bind itemPrefix
  let normalized ← normalizedId serde original idPrefix
  return (original, normalized)

/-- The ID the event's `item_id` should have for the event's type alone. -/
def eventTarget (root : JsonMap) (original : Bytes) : Option Bytes :=
  ((root.getStr (Utf8.lit "type")).bind eventPrefix).bind (normalizedId serde original)

/-- The loop over the items. -/
def registerItems (existing : List Bytes) :
    List JsonMap → Pending → Except ProtocolError Pending
  | [], pending => .ok pending
  | item :: rest, pending =>
    match itemTarget serde item with
    | none => registerItems existing rest pending
    | some (original, normalized) => do
      let pending ← normalizer.registerPending existing original normalized pending
      registerItems existing rest pending

/-- The reference of the event. -/
def registerReference (existing : List Bytes) (root : JsonMap) (pending : Pending) :
    Except ProtocolError Pending :=
  match root.getStr (Utf8.lit "item_id") with
  | none => .ok pending
  | some original =>
    match (normalizer.renamedTo pending original).or (eventTarget serde root original) with
    | none => .ok pending
    | some normalized => normalizer.registerPending existing original normalized pending

/-- A member that holds an ID, renamed. -/
def renameMember (pending : Pending) (key : Bytes) (map : JsonMap) : JsonMap :=
  match (map.getStr key).bind (normalizer.renamedTo pending) with
  | none => map
  | some normalized => map.insert key (.string normalized)

/-- A member that holds an ID is renamed. -/
def renames (pending : Pending) (key : Bytes) (map : JsonMap) : Bool :=
  ((map.getStr key).bind (normalizer.renamedTo pending)).isSome

/-- `normalize`: whether the payload was changed, the payload, and the normaliser after it. An error
leaves both as they are. -/
def normalize (payload : Value) : Except ProtocolError (Bool × Value × ResponsesItemIdNormalizer) :=
  match payload.asObject with
  | none => .ok (false, payload, normalizer)
  | some root => do
    let existing := collectItemIds root
    let pending ← normalizer.registerItems serde existing (itemLocations root) ⟨[], []⟩
    let pending ← normalizer.registerReference serde existing root pending
    let visited := visitItemsMut (normalizer.renameMember pending (Utf8.lit "id")) root
    let renamed := normalizer.renameMember pending (Utf8.lit "item_id") visited
    let changed := (itemLocations root).any (normalizer.renames pending (Utf8.lit "id")) ||
      normalizer.renames pending (Utf8.lit "item_id") root
    return (changed, .object renamed,
      { idMap := pending.renamed ++ normalizer.idMap
        seenIds := collectItemIds renamed ++ normalizer.seenIds })

end ResponsesItemIdNormalizer

end UniApi.Front
