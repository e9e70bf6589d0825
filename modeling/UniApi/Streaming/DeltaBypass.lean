/-
**`responses_fast_path`: canonical delta frames that bypass the parser.**

A chunk that looks like one whole delta event of the Responses API is forwarded without being fed to
`IncrementalSSEParser`. The match looks for LF only, and the parser also ends lines at CR, which JSON
admits as white space between its tokens.

* `matchCanonicalResponsesDeltaFrame_spec`: what a matched chunk consists of;
* `canForwardResponsesDelta_spec`: what is forwarded is JSON of a plain object;
* `feed_canonical`: what the parser would make of a matched chunk;
* `bypass_agrees_iff`: the bypass agrees with the parser exactly on the payloads whose carriage
  returns all stand apart in the white space at their end.
-/

import Mathlib.Data.List.Chain
import UniApi.Lib.JsonText
import UniApi.Streaming.SseFields
import UniApi.Streaming.SseSplit

namespace UniApi.Streaming

open UniApi.Lib RetainedBudget

/-! ### The match -/

/-- The event types of `_FAST_DELTA_PREFIXES`. -/
def fastDeltaEventTypes : List String :=
  ["response.output_text.delta", "response.reasoning_summary_text.delta",
    "response.reasoning_text.delta", "response.function_call_arguments.delta",
    "response.refusal.delta", "response.mcp_call_arguments.delta", "response.audio.delta",
    "response.audio_transcript.delta"]

/-- The prefix of an event type: its event line and the start of a data line. -/
def fastDeltaPrefix (eventType : String) : Bytes :=
  Utf8.lit "event: " ++ Utf8.lit eventType ++ lfByte :: Utf8.lit "data: "

structure CanonicalResponsesDeltaFrame where
  wireBytes : Bytes
  eventType : PyStr
  dataStart : Nat
  dataEnd : Nat
  deriving DecidableEq

/-- `frame.wire_bytes[frame.data_start : frame.data_end]`. -/
def CanonicalResponsesDeltaFrame.payload (frame : CanonicalResponsesDeltaFrame) : Bytes :=
  (frame.wireBytes.take frame.dataEnd).drop frame.dataStart

/-- `match_canonical_responses_delta_frame`. -/
def matchCanonicalResponsesDeltaFrame (maxEventBytes : Nat) (wireBytes : Bytes) :
    Option CanonicalResponsesDeltaFrame :=
  if wireBytes.length < 2 ∨ (maxEventBytes ≠ 0 ∧ wireBytes.length - 2 > maxEventBytes) then none
  else if ¬ [lfByte, lfByte] <:+ wireBytes then none
  else
    match fastDeltaEventTypes.find? fun eventType =>
        (fastDeltaPrefix eventType).isPrefixOf wireBytes with
    | none => none
    | some eventType =>
      let frame : CanonicalResponsesDeltaFrame :=
        { wireBytes
          eventType := Utf8.points eventType
          dataStart := (fastDeltaPrefix eventType).length
          dataEnd := wireBytes.length - 2 }
      if lfByte ∈ frame.payload then none else some frame

/-! ### The metadata -/

def typeKey : PyStr := Utf8.points "type"

def itemIdKey : PyStr := Utf8.points "item_id"

def itemKey : PyStr := Utf8.points "item"

def inputKey : PyStr := Utf8.points "input"

def outputKey : PyStr := Utf8.points "output"

def responseKey : PyStr := Utf8.points "response"

def statusKey : PyStr := Utf8.points "status"

def errorKey : PyStr := Utf8.points "error"

def usageKey : PyStr := Utf8.points "usage"

/-- `dict.get` after decoding: the last member of a name counts. -/
def dictGet (members : List (PyStr × Json)) (key : PyStr) : Option Json :=
  members.foldl (fun found member => if member.1 = key then some member.2 else found) none

/-- `_SelectiveResponsesMetadata`. A field that is `UNSET` is nothing. -/
structure SelectiveResponsesMetadata where
  type : Option PyStr
  itemId : Option (Option PyStr)
  item : Option Json
  input : Option Json
  output : Option Json
  response : Option Json
  status : Option Json
  error : Option Json
  usage : Option Json

namespace SelectiveResponsesMetadata

/-- A string, and nothing else. -/
def asText : Json → Option PyStr
  | .string text => some text
  | _ => none

/-- Each `type` must be a string, and each `item_id` a string or `null`. -/
def wellTyped (member : PyStr × Json) : Bool :=
  match member.2 with
  | .string _ => true
  | .null => member.1 != typeKey
  | _ => member.1 != typeKey && member.1 != itemIdKey

/-- The fields of an object: the last member of each name. -/
def ofMembers (members : List (PyStr × Json)) : Option SelectiveResponsesMetadata :=
  if members.all wellTyped then
    some { type := (dictGet members typeKey).bind asText
           itemId := (dictGet members itemIdKey).map asText
           item := dictGet members itemKey
           input := dictGet members inputKey
           output := dictGet members outputKey
           response := dictGet members responseKey
           status := dictGet members statusKey
           error := dictGet members errorKey
           usage := dictGet members usageKey }
  else none

/-- What the normaliser of item ids would have to look at. -/
def needsNormalizer (metadata : SelectiveResponsesMetadata) (eventType : PyStr) :
    Option (PyStr → PyStr → Bool) → Bool
  | none => false
  | some requires =>
    metadata.item.isSome || metadata.input.isSome || metadata.output.isSome ||
      metadata.response.isSome ||
      match metadata.itemId with
      | some (some itemId) => requires eventType itemId
      | _ => false

/-- The checks of `can_forward_responses_delta_without_materializing` on the metadata. -/
def forwards (metadata : SelectiveResponsesMetadata) (eventType : PyStr)
    (itemIdRequiresFullNormalization : Option (PyStr → PyStr → Bool)) : Bool :=
  if metadata.type.isSome && metadata.type != some eventType then false
  else if metadata.needsNormalizer eventType itemIdRequiresFullNormalization then false
  else metadata.response.isNone && metadata.status.isNone && metadata.error.isNone &&
    metadata.usage.isNone

end SelectiveResponsesMetadata

/-- `_SELECTIVE_METADATA_DECODER.decode`: UTF-8, JSON without constants, an object, and the fields. -/
def decodeMetadata (payload : Bytes) : Option SelectiveResponsesMetadata := do
  let text ← Utf8.decodeAll payload
  let value ← Json.decode false text
  match value with
  | .object members => SelectiveResponsesMetadata.ofMembers members
  | _ => none

/-- `_JSON_PARSE_WORKSPACE_FIXED_BYTES`. -/
def jsonParseWorkspaceFixedBytes : Nat := 64 * 1024

/-- `can_forward_responses_delta_without_materializing`. The estimate of the memory may be refused,
and so may the workspace. -/
def canForwardResponsesDeltaWithoutMaterializing {ε : Type}
    (estimateJsonMemoryBytes : Bytes → Nat → Except String Nat) (ensure : Nat → Except ε Unit)
    (maxJsonEstimatedBytes : Nat) (itemIdRequiresFullNormalization : Option (PyStr → PyStr → Bool))
    (frame : CanonicalResponsesDeltaFrame) : Except (StreamError ⊕ ε) Bool :=
  match estimateJsonMemoryBytes frame.payload maxJsonEstimatedBytes with
  | .error exc =>
    .error (.inl (.protocol ("SSE JSON materialization exceeds local limit: " ++ exc)))
  | .ok estimatedBytes =>
    let workspaceBytes := (frame.wireBytes.length - 2) * 8 + jsonParseWorkspaceFixedBytes
    match ensure (workspaceBytes + estimatedBytes) with
    | .error error => .error (.inr error)
    | .ok () =>
      match decodeMetadata frame.payload with
      | none => .ok false
      | some metadata => .ok (metadata.forwards frame.eventType itemIdRequiresFullNormalization)

/-! ### The general path -/

/-- `can_bypass_complete_frame`. -/
def SseParser.canBypassCompleteFrame (parser : SseParser) : Bool :=
  !parser.finished && !parser.failed && !parser.atStreamStart && parser.event.isEmpty &&
    parser.undecoded.isEmpty && !parser.trailingCr

/-- `str.isspace` of one letter. -/
def isPySpace (point : CodePoint) : Bool :=
  (9 ≤ point && point ≤ 13) || (0x1C ≤ point && point ≤ 0x20) || point == 0x85 || point == 0xA0 ||
    point == 0x1680 || (0x2000 ≤ point && point ≤ 0x200A) || point == 0x2028 || point == 0x2029 ||
    point == 0x202F || point == 0x205F || point == 0x3000

/-- `str.strip`. -/
def strip (text : PyStr) : PyStr :=
  ((text.dropWhile isPySpace).reverse.dropWhile isPySpace).reverse

/-- The payload of a parsed event: a JSON value, or the string itself. -/
inductive EventPayload where
  | json (value : Json)
  | text (text : PyStr)

/-- `_parse_sse_event_data`. -/
def parseSseEventData (eventName dataStr : PyStr) : PyStr × EventPayload :=
  if dataStr = Utf8.points "[DONE]" then (Utf8.points "[DONE]", .text (Utf8.points "[DONE]"))
  else
    let parsedPayload :=
      if dataStr = [] then .text dataStr
      else ((Json.decode true dataStr).map EventPayload.json).getD (.text dataStr)
    let eventName :=
      match eventName, parsedPayload with
      | [], .json (.object members) =>
        match dictGet members typeKey with
        | some (.string payloadEventName) =>
          if payloadEventName.length ≤ 256 then strip payloadEventName else eventName
        | _ => eventName
      | _, _ => eventName
    (eventName, parsedPayload)

/-- `parse_sse_event`. -/
def parseSseEvent (rawEvent : PyStr) : Except StreamError (PyStr × EventPayload) := do
  let fields ← extractSseEventFields rawEvent
  return parseSseEventData fields.eventName fields.data

/-! ### What is compared -/

/-- An object that needs no further look: its type is the event type, if it has one, and it has no
member that matters to failures, usage or the normaliser of item ids. -/
structure Plain (eventType : PyStr) (itemIdRequiresFullNormalization : Option (PyStr → PyStr → Bool))
    (members : List (PyStr × Json)) : Prop where
  type : ∀ value, dictGet members typeKey = some value → value = .string eventType
  response : dictGet members responseKey = none
  status : dictGet members statusKey = none
  error : dictGet members errorKey = none
  usage : dictGet members usageKey = none
  normalized : ∀ requires, itemIdRequiresFullNormalization = some requires →
    dictGet members itemKey = none ∧ dictGet members inputKey = none ∧
      dictGet members outputKey = none ∧
      ∀ itemId, dictGet members itemIdKey = some (.string itemId) →
        requires eventType itemId = false

/-- **The parser agrees with the bypass**: fed with the chunk it returns one frame and is as before,
and the frame parses to the event type and to the object of the payload, which is plain. -/
def BypassAgrees (itemIdRequiresFullNormalization : Option (PyStr → PyStr → Bool))
    (frame : CanonicalResponsesDeltaFrame) (call : SseCall) : Prop :=
  ∃ rawEvent after members, SseCall.feed (.bytes frame.wireBytes) call = (.ok [rawEvent], after) ∧
    after.parser = call.parser ∧
    parseSseEvent rawEvent = .ok (frame.eventType, .json (.object members)) ∧
    (Utf8.decodeAll frame.payload).bind (Json.decode false) = some (.object members) ∧
    Plain frame.eventType itemIdRequiresFullNormalization members

/-- The payload as text. -/
def CanonicalResponsesDeltaFrame.text (frame : CanonicalResponsesDeltaFrame) : PyStr :=
  (Utf8.decodeAll frame.payload).getD []

/-- A CR at the end of the payload is one line ending with the LF behind it. -/
def dropFinalCr (text : PyStr) : PyStr := if text.getLast? = some crPoint then text.dropLast else text

/-- **The payloads that are one data line**: behind their first CR there is only white space, no two CR
stand side by side, and the lines are not too many to be read. -/
structure OneDataLine (text : PyStr) : Prop where
  behind : (text.dropWhile (· ≠ crPoint)).all Json.isSpace = true
  apart : ¬ [crPoint, crPoint] <:+: text
  few : (dropFinalCr text).count crPoint + 2 ≤ defaultMaxFieldsPerEvent

/-! ### The match and the metadata -/

/-- The prefix of an event type as text. -/
def fastDeltaStart (eventType : String) : PyStr :=
  Utf8.points "event: " ++ Utf8.points eventType ++ lfPoint :: Utf8.points "data: "

variable {eventType : String} {members : List (PyStr × Json)}

theorem fastDeltaEventTypes_plain (member : eventType ∈ fastDeltaEventTypes) :
    eventType.toList ≠ [] ∧ ∀ letter ∈ eventType.toList, 32 < letter.toNat ∧ letter.toNat < 0x80 := by
  have all : (fastDeltaEventTypes.all fun eventType => !eventType.toList.isEmpty &&
      eventType.toList.all fun letter => 32 < letter.toNat && letter.toNat < 0x80) = true := by
    simp only [fastDeltaEventTypes, List.all_cons, List.all_nil]
    repeat rw [String.toList_ofList]
    decide
  have here := List.all_eq_true.mp all eventType member
  rw [Bool.and_eq_true, Bool.not_eq_true', List.isEmpty_eq_false_iff, List.all_eq_true] at here
  exact ⟨here.1, fun letter inside => by simpa using here.2 letter inside⟩

theorem points_eventType_plain (member : eventType ∈ fastDeltaEventTypes)
    {symbol : CodePoint} (low : symbol ≤ 32) : symbol ∉ Utf8.points eventType := by
  intro among
  obtain ⟨letter, inside, rfl⟩ := List.mem_map.mp among
  exact absurd low (Nat.not_le.mpr ((fastDeltaEventTypes_plain member).2 letter inside).1)

theorem points_eventType_ne_nil (member : eventType ∈ fastDeltaEventTypes) :
    Utf8.points eventType ≠ [] :=
  fun empty => (fastDeltaEventTypes_plain member).1 (List.map_eq_nil_iff.mp empty)

theorem fastDeltaPrefix_encode (member : eventType ∈ fastDeltaEventTypes) :
    ∃ letters : List Char, fastDeltaPrefix eventType = Utf8.encode letters ∧
      fastDeltaStart eventType = letters.map Char.toNat := by
  refine ⟨"event: ".toList ++ eventType.toList ++ '\n' :: "data: ".toList, ?_, ?_⟩
  · have ascii := Utf8.lit_eq_encode fun letter inside =>
      ((fastDeltaEventTypes_plain member).2 letter inside).2
    rw [fastDeltaPrefix, ascii, Utf8.encode_append, Utf8.encode_append]
    rfl
  · rw [List.map_append, List.map_append]
    rfl

theorem fastDeltaPrefix_getLast (eventType : String) :
    (fastDeltaPrefix eventType).getLast? = some 32 := by
  rw [fastDeltaPrefix, List.getLast?_append]
  rfl

/-- **A matched chunk** is a prefix, a payload without LF, and a blank line. -/
theorem matchCanonicalResponsesDeltaFrame_spec {maxEventBytes : Nat} {wireBytes : Bytes}
    {frame : CanonicalResponsesDeltaFrame}
    (matched : matchCanonicalResponsesDeltaFrame maxEventBytes wireBytes = some frame) :
    frame.wireBytes = wireBytes ∧ ∃ eventType ∈ fastDeltaEventTypes,
      frame.eventType = Utf8.points eventType ∧
      wireBytes = fastDeltaPrefix eventType ++ frame.payload ++ [lfByte, lfByte] ∧
      lfByte ∉ frame.payload := by
  unfold matchCanonicalResponsesDeltaFrame at matched
  split at matched
  · cases matched
  split at matched
  · cases matched
  rename_i ends
  obtain ⟨before, rfl⟩ := not_not.mp ends
  cases found : fastDeltaEventTypes.find? fun eventType =>
      (fastDeltaPrefix eventType).isPrefixOf (before ++ [lfByte, lfByte]) with
  | none => simp [found] at matched
  | some eventType =>
    have member := List.mem_of_find?_eq_some found
    have starts : fastDeltaPrefix eventType <+: before ++ [lfByte, lfByte] := by
      have holds := List.find?_some found
      exact List.isPrefixOf_iff_prefix.mp holds
    simp only [found] at matched
    split at matched
    · cases matched
    rename_i plain
    cases matched
    refine ⟨rfl, eventType, member, rfl, ?_, plain⟩
    -- the prefix ends with a space, so the blank line lies behind it
    have last := fastDeltaPrefix_getLast eventType
    have twice : before ++ [lfByte, lfByte] = before ++ [lfByte] ++ [lfByte] := by simp
    rw [twice, List.prefix_concat_iff, List.prefix_concat_iff] at starts
    rcases starts with whole | whole | ⟨payload, rfl⟩
    · rw [whole, List.getLast?_concat] at last
      exact absurd (Option.some.inj last) (by decide)
    · rw [whole, List.getLast?_concat] at last
      exact absurd (Option.some.inj last) (by decide)
    · have length : (fastDeltaPrefix eventType ++ payload ++ [lfByte, lfByte]).length - 2 =
          (fastDeltaPrefix eventType ++ payload).length := by
        simp only [List.length_append, List.length_cons, List.length_nil]
        omega
      simp only [CanonicalResponsesDeltaFrame.payload, length, List.take_left, List.drop_left]

theorem dictGet_concat (members : List (PyStr × Json)) (member : PyStr × Json) (key : PyStr) :
    dictGet (members ++ [member]) key =
      if member.1 = key then some member.2 else dictGet members key := by
  rw [dictGet, List.foldl_append]
  rfl

theorem mem_of_dictGet {key : PyStr} {value : Json}
    (found : dictGet members key = some value) : (key, value) ∈ members := by
  induction members using List.reverseRecOn with
  | nil => cases found
  | append_singleton before member ih =>
    rw [dictGet_concat] at found
    split at found
    · rename_i named
      rw [← named, ← Option.some.inj found]
      exact List.mem_append_right _ List.mem_cons_self
    · exact List.mem_append_left _ (ih found)

theorem SelectiveResponsesMetadata.wellTyped_type {value : Json}
    (typed : wellTyped (typeKey, value) = true) : ∃ text, value = .string text := by
  cases value with
  | string text => exact ⟨text, rfl⟩
  | null | bool | number | array | object => simp [wellTyped] at typed

/-- **What is forwarded is plain.** -/
theorem SelectiveResponsesMetadata.plain
    {metadata : SelectiveResponsesMetadata} {eventType : PyStr}
    {requires : Option (PyStr → PyStr → Bool)} (of : ofMembers members = some metadata)
    (forwards : metadata.forwards eventType requires = true) : Plain eventType requires members := by
  unfold ofMembers at of
  split at of
  · rename_i typed
    cases of
    unfold SelectiveResponsesMetadata.forwards at forwards
    split_ifs at forwards with sameType notNormalized
    simp only [Bool.and_eq_true, Option.isNone_iff_eq_none] at forwards
    obtain ⟨⟨⟨response, status⟩, error⟩, usage⟩ := forwards
    refine ⟨fun value found => ?_, response, status, error, usage, fun normalizer given => ?_⟩
    · obtain ⟨text, rfl⟩ := wellTyped_type (List.all_eq_true.mp typed _ (mem_of_dictGet found))
      simpa [found, asText] using sameType
    · subst given
      simp only [needsNormalizer, Bool.or_eq_true, not_or, Bool.not_eq_true,
        Option.isSome_eq_false_iff, Option.isNone_iff_eq_none] at notNormalized
      obtain ⟨⟨⟨⟨item, input⟩, output⟩, -⟩, itemId⟩ := notNormalized
      refine ⟨item, input, output, fun id found => ?_⟩
      simpa [found, asText] using itemId
  · cases of

/-! ### The lines of a canonical frame -/

section Lines

variable {text : PyStr}

theorem not_pair_iff (sign : CodePoint) (text : PyStr) :
    ¬ [sign, sign] <:+: text ↔ text.IsChain fun first second => ¬ (first = sign ∧ second = sign) := by
  induction text with
  | nil => simp
  | cons first rest ih =>
    rw [List.infix_cons_iff, not_or, ih]
    cases rest with
    | nil => simp
    | cons second rest =>
      rw [List.isChain_cons_cons]
      refine and_congr_left fun _ => not_congr ?_
      rw [List.cons_prefix_cons, List.cons_prefix_cons]
      exact ⟨fun ⟨same, same', _⟩ => ⟨same.symm, same'.symm⟩,
        fun ⟨same, same'⟩ => ⟨same.symm, same'.symm, List.nil_prefix⟩⟩

/-- Two texts have no such pair if neither has, and none where they meet. -/
theorem not_pair_append (sign : CodePoint) (first second : PyStr) :
    ¬ [sign, sign] <:+: first ++ second ↔ (¬ [sign, sign] <:+: first) ∧
      (¬ [sign, sign] <:+: second) ∧ ¬ (first.getLast? = some sign ∧ second.head? = some sign) := by
  rw [not_pair_iff, not_pair_iff, not_pair_iff, List.isChain_append]
  refine and_congr_right fun _ => and_congr_right fun _ => ?_
  constructor
  · intro apart both
    exact apart sign both.1 sign both.2 ⟨rfl, rfl⟩
  · rintro apart _ isLast _ isHead ⟨rfl, rfl⟩
    exact apart ⟨isLast, isHead⟩

theorem newlines_run_without_lf (plain : lfPoint ∉ text) (afterCr : Bool) :
    ((newlines crPoint lfPoint).run afterCr text).1 = replaceCr crPoint lfPoint text := by
  induction text generalizing afterCr with
  | nil => rfl
  | cons symbol rest ih =>
    have notLf : symbol ≠ lfPoint := fun same => plain (same ▸ List.mem_cons_self)
    have plainRest : lfPoint ∉ rest := fun member => plain (List.mem_cons_of_mem _ member)
    rw [Mealy.run_cons, ih plainRest]
    by_cases isCr : symbol = crPoint
    · simp [isCr, newlines_step_cr, replaceCr]
    · simp [newlines_step_plain afterCr isCr fun same => notLf same.1, isCr, replaceCr]

/-- **The line endings of a payload and the blank line behind it.** -/
theorem newlines_run_payload (plain : lfPoint ∉ text) :
    (newlines crPoint lfPoint).run false (text ++ [lfPoint, lfPoint]) =
      (replaceCr crPoint lfPoint (dropFinalCr text) ++ [lfPoint, lfPoint], false) := by
  rw [Mealy.run_append, newlines_run_without_lf plain]
  unfold dropFinalCr
  by_cases last : text.getLast? = some crPoint
  · obtain ⟨before, rfl⟩ := List.getLast?_eq_some_iff.mp last
    rw [if_pos last, newlines_run_state _ (by simp), last, List.dropLast_concat]
    simp [replaceCr, newlines]
  · have state : ((newlines crPoint lfPoint).run false text).2 = false := by
      by_cases empty : text = []
      · rw [empty]
        rfl
      · rw [newlines_run_state _ empty, decide_eq_false last]
    rw [if_neg last, state]
    simp [newlines]

/-- **One frame and nothing left**: a text in front of a blank line, if it has none itself. -/
theorem blankLines_run_single (text : PyStr) :
    (∃ frame, (blankLines lfPoint).run [] (text ++ [lfPoint, lfPoint]) = ([frame], [])) ↔
      ¬ [lfPoint, lfPoint] <:+: text ++ [lfPoint] := by
  have twice : text ++ [lfPoint, lfPoint] = text ++ [lfPoint] ++ [lfPoint] := by simp
  rw [twice, Mealy.run_append, ← blankLines_run_eq_nil]
  constructor
  · rintro ⟨frame, single⟩
    by_contra cuts
    obtain ⟨first, others, cuts⟩ := List.exists_cons_of_ne_nil cuts
    rw [cuts, Mealy.run_cons] at single
    generalize ((blankLines lfPoint).run [] (text ++ [lfPoint])).2 = event at single
    by_cases cut : event.getLast? = some lfPoint
    · simp [blankLines, cut] at single
    · simp [blankLines, cut] at single
  · intro none
    have collects := blankLines_run_collects none
    rw [List.nil_append] at collects
    rw [none, collects, Mealy.run_cons, blankLines_step_cut]
    exact ⟨text, rfl⟩

theorem blankLines_run_frame {frame : PyStr}
    (single : (blankLines lfPoint).run [] (text ++ [lfPoint, lfPoint]) = ([frame], [])) :
    frame = text := by
  have none := (blankLines_run_eq_nil _).mpr ((blankLines_run_single text).mp ⟨frame, single⟩)
  have collects := blankLines_run_collects none
  have twice : text ++ [lfPoint, lfPoint] = text ++ [lfPoint] ++ [lfPoint] := by simp
  rw [List.nil_append] at collects
  rw [twice, Mealy.run_append, none, collects, Mealy.run_cons, blankLines_step_cut] at single
  simpa using single.symm

/-- A prefix of a frame has no blank line, no CR, and ends with a space. -/
theorem fastDeltaStart_lines (member : eventType ∈ fastDeltaEventTypes) :
    (¬ [lfPoint, lfPoint] <:+: fastDeltaStart eventType) ∧ crPoint ∉ fastDeltaStart eventType ∧
      (fastDeltaStart eventType).getLast? = some 32 := by
  have plain : ∀ symbol : CodePoint, symbol ≤ 32 → symbol ∉ Utf8.points "event: " →
      symbol ∉ Utf8.points "event: " ++ Utf8.points eventType := by
    intro symbol low absent
    rw [List.mem_append, not_or]
    exact ⟨absent, points_eventType_plain member low⟩
  have letters (symbol : CodePoint) (low : symbol = lfPoint ∨ symbol = crPoint) :
      symbol ∉ Utf8.points "event: " ∧ symbol ∉ Utf8.points "data: " := by
    rw [Utf8.points_ofList, Utf8.points_ofList]
    obtain rfl | rfl := low <;> decide
  have noLf := plain lfPoint (by decide) (letters lfPoint (.inl rfl)).1
  refine ⟨?_, ?_, ?_⟩
  · rw [fastDeltaStart, not_pair_append]
    refine ⟨fun pair => noLf (pair.subset List.mem_cons_self), ?_, fun both => ?_⟩
    · rw [Utf8.points_ofList]
      decide
    · exact noLf (List.mem_of_getLast? both.1)
  · rw [fastDeltaStart, List.mem_append, not_or]
    refine ⟨plain crPoint (by decide) (letters crPoint (.inr rfl)).1, ?_⟩
    rw [Utf8.points_ofList]
    decide
  · rw [fastDeltaStart, List.getLast?_append]
    rfl

theorem not_mem_dropFinalCr {symbol : CodePoint} (absent : symbol ∉ text) :
    symbol ∉ dropFinalCr text := by
  unfold dropFinalCr
  split
  · exact fun among => absent (List.dropLast_subset _ among)
  · exact absent

theorem not_pair_replaceCr (plain : lfPoint ∉ text) :
    ¬ [lfPoint, lfPoint] <:+: replaceCr crPoint lfPoint text ↔ ¬ [crPoint, crPoint] <:+: text := by
  have same : ∀ symbol ∈ text,
      ((if symbol = crPoint then lfPoint else symbol) = lfPoint ↔ symbol = crPoint) := by
    intro symbol among
    have notLf : symbol ≠ lfPoint := fun isLf => plain (isLf ▸ among)
    by_cases isCr : symbol = crPoint
    · simp [isCr]
    · simp [isCr, notLf]
  rw [not_pair_iff, not_pair_iff, replaceCr, List.isChain_map]
  refine List.IsChain.iff_of_mem_imp fun first second isFirst isSecond => not_congr ?_
  rw [same first isFirst, same second isSecond]

theorem not_pair_dropFinalCr (text : PyStr) :
    ¬ [crPoint, crPoint] <:+: dropFinalCr text ++ [crPoint] ↔ ¬ [crPoint, crPoint] <:+: text := by
  unfold dropFinalCr
  by_cases final : text.getLast? = some crPoint
  · obtain ⟨before, rfl⟩ := List.getLast?_eq_some_iff.mp final
    rw [if_pos final, List.dropLast_concat]
  · rw [if_neg final, not_pair_append]
    exact ⟨fun apart => apart.1, fun apart => ⟨apart, by decide, fun both => final both.1⟩⟩

/-- **The blank lines of a frame** are the pairs of CR of its payload. -/
theorem blank_line_iff (member : eventType ∈ fastDeltaEventTypes) (plain : lfPoint ∉ text) :
    [lfPoint, lfPoint] <:+: fastDeltaStart eventType ++
        replaceCr crPoint lfPoint (dropFinalCr text) ++ [lfPoint] ↔
      [crPoint, crPoint] <:+: text := by
  obtain ⟨single, -, last⟩ := fastDeltaStart_lines member
  have ended : replaceCr crPoint lfPoint (dropFinalCr text) ++ [lfPoint] =
      replaceCr crPoint lfPoint (dropFinalCr text ++ [crPoint]) := by simp [replaceCr]
  have plain' : lfPoint ∉ dropFinalCr text ++ [crPoint] := by
    simp [not_mem_dropFinalCr plain]
  rw [List.append_assoc, ended, ← not_iff_not, not_pair_append, not_pair_replaceCr plain',
    not_pair_dropFinalCr, last]
  exact ⟨fun apart => apart.2.1, fun apart => ⟨single, apart, by simp⟩⟩

/-- The lines of a text: the first one, and lines that each follow a sign. -/
theorem splitOn_behind (sign : CodePoint) (text : PyStr) :
    ∃ later, text.splitOn sign = text.takeWhile (· ≠ sign) :: later ∧
      later.length = text.count sign ∧
      ∀ first rest, first :: rest ∈ later →
        ∃ before after, text = before ++ sign :: first :: after := by
  induction text with
  | nil => exact ⟨[], rfl, rfl, by simp⟩
  | cons symbol others ih =>
    obtain ⟨later, split, length, behind⟩ := ih
    rw [List.splitOn_cons_eq_if_modifyHead, split]
    by_cases isSign : symbol = sign
    · subst isSign
      refine ⟨others.takeWhile (· ≠ symbol) :: later, by simp, by simp [length], ?_⟩
      intro first rest member
      rcases List.mem_cons.mp member with here | there
      · have start := List.takeWhile_prefix (l := others) (fun other => decide (other ≠ symbol))
        rw [← here] at start
        obtain ⟨after, same⟩ := start
        exact ⟨[], rest ++ after, by rw [← same]; rfl⟩
      · obtain ⟨before, after, rfl⟩ := behind first rest there
        exact ⟨symbol :: before, after, rfl⟩
    · refine ⟨later, by simp [isSign], by simp [length, isSign], ?_⟩
      intro first rest member
      obtain ⟨before, after, rfl⟩ := behind first rest member
      exact ⟨symbol :: before, after, rfl⟩

theorem splitOn_replaceCr (plain : lfPoint ∉ text) :
    (replaceCr crPoint lfPoint text).splitOn lfPoint = text.splitOn crPoint := by
  induction text with
  | nil => rfl
  | cons symbol rest ih =>
    have plainRest : lfPoint ∉ rest := fun member => plain (List.mem_cons_of_mem _ member)
    have notLf : symbol ≠ lfPoint := fun same => plain (same ▸ List.mem_cons_self)
    have unfolded : replaceCr crPoint lfPoint (symbol :: rest) =
        (if symbol = crPoint then lfPoint else symbol) :: replaceCr crPoint lfPoint rest := rfl
    rw [unfolded, List.splitOn_cons_eq_if_modifyHead, List.splitOn_cons_eq_if_modifyHead, ih plainRest]
    by_cases isCr : symbol = crPoint
    · simp [isCr]
    · simp [isCr, notLf]

theorem splitOn_plain_append {sign : CodePoint} {start : PyStr} (plain : sign ∉ start) (text : PyStr) :
    (start ++ text).splitOn sign = (text.splitOn sign).modifyHead (start ++ ·) := by
  induction start with
  | nil =>
    have unchanged : ∀ parts : List PyStr, parts.modifyHead ([] ++ ·) = parts := by
      intro parts
      cases parts <;> rfl
    rw [unchanged]
    rfl
  | cons symbol rest ih =>
    have notSign : symbol ≠ sign := fun same => plain (same ▸ List.mem_cons_self)
    have plainRest : sign ∉ rest := fun member => plain (List.mem_cons_of_mem _ member)
    rw [List.cons_append, List.splitOn_cons_eq_if_modifyHead, ih plainRest,
      List.modifyHead_modifyHead, if_neg (by simpa using notSign)]
    rfl

/-- The first line of a payload ends at its first CR, final or not. -/
theorem takeWhile_dropFinalCr (text : PyStr) :
    (dropFinalCr text).takeWhile (· ≠ crPoint) = text.takeWhile (· ≠ crPoint) := by
  unfold dropFinalCr
  by_cases final : text.getLast? = some crPoint
  · obtain ⟨before, rfl⟩ := List.getLast?_eq_some_iff.mp final
    rw [if_pos final, List.dropLast_concat, List.takeWhile_append]
    split
    · rename_i whole
      simpa using (List.takeWhile_prefix _).eq_of_length whole
    · rfl
  · rw [if_neg final]

/-- What a payload without its final CR holds, the payload holds. -/
theorem dropFinalCr_prefix (text : PyStr) : dropFinalCr text <+: text := by
  unfold dropFinalCr
  split
  · exact List.dropLast_prefix text
  · exact List.prefix_refl text

/-- A line that starts with no letter of a field name says nothing. -/
theorem take_other {reading : Reading CodePoint} {line : PyStr}
    (other : ∀ first rest, line = first :: rest → first ≠ 100 ∧ first ≠ 101) :
    reading.take pointSigns line = reading := by
  have unnamed : (fieldOf pointSigns line).1 ≠ pointSigns.eventField ∧
      (fieldOf pointSigns line).1 ≠ pointSigns.dataField := by
    have start : (fieldOf pointSigns line).1 <+: line := by
      unfold fieldOf
      split
      · exact List.prefix_refl line
      · exact List.takeWhile_prefix _
    obtain ⟨after, same⟩ := start
    constructor
    · intro named
      rw [named] at same
      exact (other 101 _ same.symm).2 rfl
    · intro named
      rw [named] at same
      exact (other 100 _ same.symm).1 rfl
  unfold Reading.take
  simp only [if_neg unnamed.1, if_neg unnamed.2]

theorem foldl_take_others {reading : Reading CodePoint} {lines : List PyStr}
    (others : ∀ first rest, first :: rest ∈ lines → first ≠ 100 ∧ first ≠ 101) :
    lines.foldl (Reading.take pointSigns) reading = reading := by
  induction lines generalizing reading with
  | nil => rfl
  | cons line rest ih =>
    have here : reading.take pointSigns line = reading := by
      refine take_other fun first rest same => others first rest ?_
      rw [← same]
      exact List.mem_cons_self
    rw [List.foldl_cons, here]
    exact ih fun first rest member => others first rest (List.mem_cons_of_mem _ member)

theorem take_eventLine (reading : Reading CodePoint) (text : PyStr) :
    reading.take pointSigns (Utf8.points "event: " ++ text) = { reading with event := some text } := rfl

theorem take_dataLine (reading : Reading CodePoint) (text : PyStr) :
    reading.take pointSigns (Utf8.points "data: " ++ text) =
      { reading with data := reading.data ++ [text] } := rfl

/-- **The fields of a canonical frame**: its event type, and the first line of its payload. -/
theorem extract_canonical (member : eventType ∈ fastDeltaEventTypes) (plain : lfPoint ∉ text)
    (others : ∀ before after first, text = before ++ crPoint :: first :: after →
      first ≠ 100 ∧ first ≠ 101) :
    extractSseEventFields (fastDeltaStart eventType ++
        replaceCr crPoint lfPoint (dropFinalCr text)) =
      if (dropFinalCr text).count crPoint + 2 ≤ defaultMaxFieldsPerEvent then
        .ok ⟨Utf8.points eventType, text.takeWhile (· ≠ crPoint), true, true⟩
      else .error (.outputLimit "fields per event" defaultMaxFieldsPerEvent
        (defaultMaxFieldsPerEvent + 1)) := by
  have plainEvent : lfPoint ∉ Utf8.points "event: " ++ Utf8.points eventType := by
    rw [List.mem_append, not_or]
    exact ⟨by decide, points_eventType_plain member (by decide)⟩
  obtain ⟨later, split, length, behind⟩ := splitOn_behind crPoint (dropFinalCr text)
  have lines : (fastDeltaStart eventType ++
      replaceCr crPoint lfPoint (dropFinalCr text)).splitOn lfPoint =
      (Utf8.points "event: " ++ Utf8.points eventType) ::
        (Utf8.points "data: " ++ text.takeWhile (· ≠ crPoint)) :: later := by
    rw [fastDeltaStart, List.append_assoc, List.cons_append,
      List.splitOn_append_cons_self_of_not_mem plainEvent, splitOn_plain_append (by decide),
      splitOn_replaceCr (not_mem_dropFinalCr plain), split, takeWhile_dropFinalCr]
    rfl
  have unread : ∀ first rest, first :: rest ∈ later → first ≠ 100 ∧ first ≠ 101 := by
    intro first rest among
    obtain ⟨before, after, same⟩ := behind first rest among
    obtain ⟨final, whole⟩ := dropFinalCr_prefix text
    rw [same, List.append_assoc] at whole
    exact others before (after ++ final) first whole.symm
  have meaning : UniApi.Lib.read pointSigns ((Utf8.points "event: " ++ Utf8.points eventType) ::
      (Utf8.points "data: " ++ text.takeWhile (· ≠ crPoint)) :: later) =
      ⟨some (Utf8.points eventType), [text.takeWhile (· ≠ crPoint)]⟩ := by
    rw [UniApi.Lib.read, List.foldl_cons, List.foldl_cons, take_eventLine, take_dataLine,
      foldl_take_others unread]
    rfl
  have joined : [lfPoint].intercalate [text.takeWhile (· ≠ crPoint)] = text.takeWhile (· ≠ crPoint) := by
    simp [List.intercalate]
  rw [extractSseEventFields_eq, lines, meaning, List.length_cons, List.length_cons, length]
  simp only [joined]
  rfl

end Lines

/-! ### What the parser makes of a canonical frame -/

section Feed

variable {category : String} {others : Int} {call : SseCall} {maxEventBytes : Nat} {wireBytes : Bytes}
  {frame : CanonicalResponsesDeltaFrame} {text : PyStr}

theorem plain_text {payload : Bytes} (plain : lfByte ∉ payload)
    (isText : Utf8.decodeAll payload = some text) : lfPoint ∉ text := by
  obtain ⟨letters, rfl, rfl⟩ := Utf8.decodeAll_eq_some_iff.mp isText
  intro member
  obtain ⟨letter, among, same⟩ := List.mem_map.mp member
  refine plain (List.mem_flatMap.mpr ⟨letter, among, ?_⟩)
  exact (mem_encodeChar_ascii (by decide)).mpr same

theorem decode_canonical (member : eventType ∈ fastDeltaEventTypes)
    {payload : Bytes} (isText : Utf8.decodeAll payload = some text) :
    Utf8.decode [] (fastDeltaPrefix eventType ++ payload ++ [lfByte, lfByte]) =
      some (fastDeltaStart eventType ++ text ++ [lfPoint, lfPoint], []) := by
  obtain ⟨letters, rfl, rfl⟩ := Utf8.decodeAll_eq_some_iff.mp isText
  obtain ⟨start, bytes, points⟩ := fastDeltaPrefix_encode member
  have whole : fastDeltaPrefix eventType ++ Utf8.encode letters ++ [lfByte, lfByte] =
      Utf8.encode (start ++ letters ++ ['\n', '\n']) := by
    rw [Utf8.encode_append, Utf8.encode_append, bytes]
    rfl
  rw [whole, Utf8.decode_encode, points]
  simp

/-- The state of the text stages of a parser that can be bypassed. -/
theorem stage_of_bypass {parser : SseParser} (bypass : parser.canBypassCompleteFrame = true) :
    parser.Running ∧ parser.undecoded = [] ∧ parser.event = [] ∧ parser.atStreamStart = false ∧
      parser.trailingCr = false := by
  simp only [SseParser.canBypassCompleteFrame, Bool.and_eq_true, Bool.not_eq_true',
    List.isEmpty_iff] at bypass
  obtain ⟨⟨⟨⟨⟨finished, failed⟩, start⟩, event⟩, undecoded⟩, trailing⟩ := bypass
  exact ⟨⟨finished, failed⟩, undecoded, event, start, trailing⟩

theorem SseParser.event_of_pendingText {parser : SseParser} (sound : parser.Sound)
    (empty : parser.pendingText = []) : parser.event = [] := by
  obtain ⟨letters, event⟩ := sound.valid
  rw [SseParser.pendingText_encode event, List.map_eq_nil_iff] at empty
  rw [event, empty, Utf8.encode_nil]

theorem SseParser.eq_of_fields {first second : SseParser} (limits : first.limits = second.limits)
    (undecoded : first.undecoded = second.undecoded) (event : first.event = second.event)
    (pending : first.pendingBudgetBytes = second.pendingBudgetBytes)
    (trailingCr : first.trailingCr = second.trailingCr) (finished : first.finished = second.finished)
    (failed : first.failed = second.failed) (start : first.atStreamStart = second.atStreamStart) :
    first = second := by
  cases first
  cases second
  simp_all

/-- **What the parser makes of a matched chunk**: the blank lines of its text, between two events. -/
theorem feed_canonical (matched : matchCanonicalResponsesDeltaFrame maxEventBytes wireBytes = some frame)
    (isText : Utf8.decodeAll frame.payload = some text) (remain : 0 ≤ others)
    (sound : call.parser.Sound) (books : Books category others call)
    (bypass : call.parser.canBypassCompleteFrame = true)
    (granted : ∀ error, (SseCall.feed (.bytes wireBytes) call).1 = .error error →
      error.isResource = false) :
    ∃ eventType ∈ fastDeltaEventTypes, frame.eventType = Utf8.points eventType ∧ lfPoint ∉ text ∧
      ∃ frames after, SseCall.feed (.bytes frame.wireBytes) call = (.ok frames, after) ∧
        (after.parser = call.parser ↔ after.parser.pendingText = []) ∧
        (blankLines lfPoint).run [] (fastDeltaStart eventType ++
          replaceCr crPoint lfPoint (dropFinalCr text) ++ [lfPoint, lfPoint]) =
          (frames, after.parser.pendingText) := by
  obtain ⟨sameWire, eventType, member, sameType, wire, plain⟩ :=
    matchCanonicalResponsesDeltaFrame_spec matched
  obtain ⟨running, undecoded, event, start, trailing⟩ := stage_of_bypass bypass
  have plainText := plain_text plain isText
  have decoded : Utf8.decode [] wireBytes =
      some (fastDeltaStart eventType ++ text ++ [lfPoint, lfPoint], []) := by
    rw [wire]
    exact decode_canonical member isText
  refine ⟨eventType, member, sameType, plainText, ?_⟩
  rw [sameWire]
  have fed := feed_spec remain (.bytes wireBytes) sound running call ⟨rfl, books⟩
  cases outcome : SseCall.feed (.bytes wireBytes) call with
  | mk result after =>
    rw [outcome] at fed granted
    cases result with
    | error error =>
      rcases fed.1.bytes with resource | ⟨refused, -⟩
      · exact absurd (resource.symm.trans (granted error rfl)) (by decide)
      · rw [undecoded, decoded] at refused
        cases refused
    | ok frames =>
      obtain ⟨fedText, decodes, run⟩ := fed.fed
      rw [decodeFrom_feedPieces, undecoded, decoded] at decodes
      simp only [Option.some.injEq, Prod.mk.injEq] at decodes
      obtain ⟨rfl, sameUndecoded⟩ := decodes
      have noEvent : call.parser.pendingText = [] := by
        rw [SseParser.pendingText, event]
        rfl
      have noCr := (fastDeltaStart_lines member).2.1
      -- no mark is at the start, and the prefix has no line ending but its LF
      have lines : (newlines crPoint lfPoint).run false
          (fastDeltaStart eventType ++ text ++ [lfPoint, lfPoint]) =
          (fastDeltaStart eventType ++
            replaceCr crPoint lfPoint (dropFinalCr text) ++ [lfPoint, lfPoint], false) := by
        rw [List.append_assoc, Mealy.run_append, newlines_run_plain _ noCr,
          newlines_run_payload plainText, List.append_assoc]
      rw [SseParser.stage, start, trailing, noEvent, textMachine, Mealy.cascade_run, Mealy.cascade_run,
        leadingMark_run_false, lines] at run
      simp only [SseParser.stage, Prod.mk.injEq] at run
      obtain ⟨sameFrames, sameStart, sameTrailing, samePending⟩ := run
      refine ⟨frames, after, rfl, ⟨fun same => by rw [same, noEvent], fun empty => ?_⟩,
        Prod.ext sameFrames samePending⟩
      have noEventAfter := SseParser.event_of_pendingText fed.sound empty
      have balanced := fed.books.balanced
      have balancedBefore := books.balanced
      rw [noEventAfter] at balanced
      rw [event] at balancedBefore
      exact SseParser.eq_of_fields fed.limits (sameUndecoded.symm.trans undecoded.symm)
        (noEventAfter.trans event.symm) (balanced.trans balancedBefore.symm)
        (sameTrailing.symm.trans trailing.symm)
        (fed.running.notFinished.trans running.notFinished.symm)
        (fed.running.notFailed.trans running.notFailed.symm) (sameStart.symm.trans start.symm)

end Feed

/-! ### The event of a frame -/

theorem decode_of_parsed {eventName name dataStr : PyStr} {value : Json}
    (parsed : parseSseEventData eventName dataStr = (name, .json value)) :
    Json.decode true dataStr = some value := by
  have payload := congrArg Prod.snd parsed
  unfold parseSseEventData at payload
  by_cases done : dataStr = Utf8.points "[DONE]"
  · simp [done] at payload
  · by_cases empty : dataStr = []
    · rw [if_neg done] at payload
      simp [empty] at payload
    · simp only [if_neg done, if_neg empty] at payload
      cases decoded : Json.decode true dataStr with
      | none => simp [decoded] at payload
      | some read => simpa [decoded] using payload

/-- **An object parses to itself**, and a declared event name stays. -/
theorem parseSseEventData_object {eventName dataStr : PyStr}
    (named : eventName ≠ []) (decoded : Json.decode true dataStr = some (.object members)) :
    parseSseEventData eventName dataStr = (eventName, .json (.object members)) := by
  have notDone : dataStr ≠ Utf8.points "[DONE]" := by
    rintro rfl
    have undecodable : (Json.decode true (Utf8.points "[DONE]")).isNone = true := by decide
    simp [decoded] at undecodable
  have nonempty : dataStr ≠ [] := by
    rintro rfl
    cases decoded
  obtain ⟨first, rest, rfl⟩ := List.exists_cons_of_ne_nil named
  simp [parseSseEventData, notDone, nonempty, decoded]

/-- **What is forwarded** is UTF-8, and JSON of a plain object. -/
theorem canForwardResponsesDelta_spec {ε : Type}
    {estimateJsonMemoryBytes : Bytes → Nat → Except String Nat} {ensure : Nat → Except ε Unit}
    {maxJsonEstimatedBytes : Nat} {requires : Option (PyStr → PyStr → Bool)}
    {frame : CanonicalResponsesDeltaFrame}
    (forwards : canForwardResponsesDeltaWithoutMaterializing estimateJsonMemoryBytes ensure
      maxJsonEstimatedBytes requires frame = .ok true) :
    ∃ text members, Utf8.decodeAll frame.payload = some text ∧
      Json.decode false text = some (.object members) ∧ Plain frame.eventType requires members := by
  unfold canForwardResponsesDeltaWithoutMaterializing at forwards
  split at forwards
  · cases forwards
  dsimp only at forwards
  split at forwards
  · cases forwards
  split at forwards
  · cases forwards
  rename_i metadata decoded
  obtain ⟨text, isText, parsed⟩ := Option.bind_eq_some_iff.mp decoded
  obtain ⟨value, isJson, of⟩ := Option.bind_eq_some_iff.mp parsed
  cases value with
  | object members =>
    exact ⟨text, members, isText, isJson,
      SelectiveResponsesMetadata.plain of (Except.ok.inj forwards)⟩
  | null | bool | number | string | array => cases of

/-! ### The bypass against the parser -/

/-- **The bypass agrees with the parser exactly on one data line.** -/
theorem bypass_agrees_iff {ε : Type} (maxEventBytes maxJsonEstimatedBytes : Nat)
    (estimateJsonMemoryBytes : Bytes → Nat → Except String Nat) (ensure : Nat → Except ε Unit)
    (requires : Option (PyStr → PyStr → Bool)) (wireBytes : Bytes)
    (frame : CanonicalResponsesDeltaFrame)
    (matched : matchCanonicalResponsesDeltaFrame maxEventBytes wireBytes = some frame)
    (forwards : canForwardResponsesDeltaWithoutMaterializing estimateJsonMemoryBytes ensure
      maxJsonEstimatedBytes requires frame = .ok true)
    {category : String} {others : Int} (remain : 0 ≤ others) (call : SseCall)
    (sound : call.parser.Sound) (books : Books category others call)
    (bypass : call.parser.canBypassCompleteFrame = true)
    (granted : ∀ error, (SseCall.feed (.bytes wireBytes) call).1 = .error error →
      error.isResource = false) :
    BypassAgrees requires frame call ↔ OneDataLine frame.text := by
  obtain ⟨text, members, isText, isJson, plain⟩ := canForwardResponsesDelta_spec forwards
  obtain ⟨eventType, member, sameType, plainText, frames, after, fed, idle, run⟩ :=
    feed_canonical matched isText remain sound books bypass granted
  have sameText : frame.text = text := by
    rw [CanonicalResponsesDeltaFrame.text, isText]
    rfl
  -- behind a CR inside the JSON text no field name starts
  have unread : ∀ before after first, text = before ++ crPoint :: first :: after →
      first ≠ 100 ∧ first ≠ 101 := by
    intro before after first same
    have refused : ∀ letter, Json.isSpace letter = false → Json.startsWord letter = false →
        letter ∉ [34, 44, 58, 91, 93, 123, 125] → first ≠ letter := by
      rintro letter notSpace unstarted noSign rfl
      rw [same, Json.decode_after_cr notSpace unstarted noSign] at isJson
      cases isJson
    exact ⟨refused 100 rfl rfl (by decide), refused 101 rfl rfl (by decide)⟩
  have extracted := extract_canonical member plainText unread
  have named := points_eventType_ne_nil member
  have split := List.takeWhile_append_dropWhile (p := fun symbol => decide (symbol ≠ crPoint)) (l := text)
  have isObject : Json.decode true text = some (.object members) := Json.decode_constants isJson
  rw [sameText]
  constructor
  · rintro ⟨rawEvent, after', members', fed', unchanged, parsed, -, -⟩
    rw [fed] at fed'
    cases fed'
    rw [idle.mp unchanged] at run
    have isFrame := blankLines_run_frame run
    have apart : ¬ [crPoint, crPoint] <:+: text := by
      rw [← blank_line_iff member plainText]
      exact (blankLines_run_single _).mp ⟨rawEvent, run⟩
    subst isFrame
    simp only [parseSseEvent, extracted, bind, Except.bind, pure, Except.pure] at parsed
    by_cases few : (dropFinalCr text).count crPoint + 2 ≤ defaultMaxFieldsPerEvent
    · rw [if_pos few] at parsed
      have firstLine := decode_of_parsed (Except.ok.inj parsed)
      refine ⟨Json.decode_object_ends firstLine ?_, apart, few⟩
      rw [split, isObject]
      exact Option.some_ne_none _
    · rw [if_neg few] at parsed
      cases parsed
  · rintro ⟨behind, apart, few⟩
    have single := (blankLines_run_single _).mpr ((not_congr (blank_line_iff member plainText)).mpr apart)
    obtain ⟨rawEvent, cut⟩ := single
    rw [run] at cut
    obtain ⟨rfl, empty⟩ := Prod.mk.inj cut
    rw [empty] at run
    have isFrame := blankLines_run_frame run
    subst isFrame
    have firstLine : Json.decode true (text.takeWhile (· ≠ crPoint)) = some (.object members) := by
      rw [← Json.decode_space behind, split, isObject]
    refine ⟨_, after, members, fed, idle.mpr empty, ?_, by rw [isText, Option.bind_some, isJson], plain⟩
    simp only [parseSseEvent, extracted, if_pos few, bind, Except.bind, pure, Except.pure, sameType]
    rw [parseSseEventData_object named firstLine]

/-- A parser between two events, without byte limits. -/
def betweenEvents : SseCall :=
  { SseCall.unlimited with parser := { SseCall.unlimited.parser with atStreamStart := false } }

theorem betweenEvents_books : Books "stream_parser" 0 betweenEvents :=
  (books_fresh SseCall.unlimited.parser.limits
    (RetainedBudget.consistent_fresh 1000 "stream_parser")).of_sameParser rfl rfl

theorem granted_of_ok {outcome : Except StreamError (List PyStr)}
    (returned : outcome.toBool = true) (error : StreamError) (raised : outcome = .error error) :
    error.isResource = false := by
  rw [raised] at returned
  cases returned

/-- A matched chunk of type `response.refusal.delta`. -/
def refusalDelta (payload : String) : CanonicalResponsesDeltaFrame :=
  let start := fastDeltaPrefix "response.refusal.delta"
  { wireBytes := start ++ Utf8.lit payload ++ [lfByte, lfByte]
    eventType := Utf8.points "response.refusal.delta"
    dataStart := start.length
    dataEnd := start.length + payload.length }

/-- A CR between spaces at the end of the payload does no harm. -/
theorem bypass_agrees_trailing_cr :
    BypassAgrees none (refusalDelta "\x7b\"delta\":\"x\"\x7d \r ") betweenEvents :=
  (bypass_agrees_iff 0 0 (fun _ _ => .ok 0) (fun _ => (.ok () : Except Unit Unit)) none
    (refusalDelta "\x7b\"delta\":\"x\"\x7d \r ").wireBytes
    (refusalDelta "\x7b\"delta\":\"x\"\x7d \r ") (by decide) (by decide) (Int.le_refl 0)
    betweenEvents ⟨Utf8.held_nil, [], rfl⟩ betweenEvents_books rfl
    (granted_of_ok (by decide +kernel))).mpr
    ⟨by decide +kernel, by decide +kernel, by decide +kernel⟩

/-- **A CR inside the JSON text** cuts the data line that the parser sees: the chunk is forwarded, but
the parser would give a frame whose data is a part of the text and no JSON. -/
theorem bypass_disagrees_inner_cr :
    matchCanonicalResponsesDeltaFrame 0 (refusalDelta "\x7b\r\"delta\":\"x\"\x7d").wireBytes =
        some (refusalDelta "\x7b\r\"delta\":\"x\"\x7d") ∧
      canForwardResponsesDeltaWithoutMaterializing (fun _ _ => .ok 0)
        (fun _ => (.ok () : Except Unit Unit)) 0 none (refusalDelta "\x7b\r\"delta\":\"x\"\x7d") = .ok true ∧
      betweenEvents.parser.canBypassCompleteFrame = true ∧
      (SseCall.feed (.bytes (refusalDelta "\x7b\r\"delta\":\"x\"\x7d").wireBytes) betweenEvents).1 =
        .ok [Utf8.points "event: response.refusal.delta\ndata: \x7b\n\"delta\":\"x\"\x7d"] ∧
      ¬ BypassAgrees none (refusalDelta "\x7b\r\"delta\":\"x\"\x7d") betweenEvents := by
  have fed : (SseCall.feed (.bytes (refusalDelta "\x7b\r\"delta\":\"x\"\x7d").wireBytes) betweenEvents).1 =
      .ok [Utf8.points "event: response.refusal.delta\ndata: \x7b\n\"delta\":\"x\"\x7d"] := by decide +kernel
  refine ⟨by decide, by decide, rfl, fed, ?_⟩
  rintro ⟨rawEvent, after, members, fed', -, parsed, -⟩
  rw [fed'] at fed
  cases fed
  have extracted : extractSseEventFields
      (Utf8.points "event: response.refusal.delta\ndata: \x7b\n\"delta\":\"x\"\x7d") =
      .ok ⟨Utf8.points "response.refusal.delta", Utf8.points "\x7b", true, true⟩ := by decide
  have undecodable : (Json.decode true (Utf8.points "\x7b")).isNone = true := by decide
  simp only [parseSseEvent, extracted, bind, Except.bind, pure, Except.pure] at parsed
  rw [decode_of_parsed (Except.ok.inj parsed)] at undecodable
  cases undecodable

end UniApi.Streaming
