/-
**Chunks of a message, as the collector takes them.**

* `Fragments`, `WithinLimits`: a message cut into chunks, in any interleaving, within the limits;
* `Room`: what is left of the limits for texts;
* `processToolCall_piece`, `processChoice_piece`, `processPayload_piece`: what a chunk adds;
* `saysOf_data`, `saysOf_comment`: what a frame says;
* `collectItems_frame`: the loop, one frame further.
-/

import UniApi.Streaming.Collector

namespace UniApi.Streaming.Collector

open UniApi.Lib
open UniApi.Lib.PyData (lit)

/-! ### A message in chunks -/

/-- A tool call of a chunk: its index, and what is given of it. -/
structure CallPiece where
  index : ℕ
  id : Option PyText
  name : Option PyText
  arguments : Option PyText

/-- What a chunk gives. -/
structure Piece where
  content : Option PyText
  reasoning : Option PyText
  finish : Option PyText
  calls : List CallPiece

/-- A text, or null where none is given. -/
def given : Option PyText → PyData
  | some text => .str text
  | none => .none

/-- A member of `tool_calls`. -/
structure IsCallPiece (item : PyData) (call : CallPiece) : Prop where
  members : ∃ members, item = .dict members ∧
    (members.lookup "index").getD (.int 0) = .int call.index ∧
    member members "id" = given call.id ∧
    (member members "function" = .none ∧ call.name = none ∧ call.arguments = none ∨
      ∃ function, member members "function" = .dict function ∧
        member function "name" = given call.name ∧
        member function "arguments" = given call.arguments)

/-- A chunk with one choice. -/
structure IsPiece (payload : PyData) (created : Option ℤ) (piece : Piece) : Prop where
  members : ∃ members choice delta, payload = .dict members ∧
    member members "created" = (created.map PyData.int).getD .none ∧
    member members "choices" = .list [.dict choice] ∧
    (member choice "delta").orElse (.dict []) = .dict delta ∧
    member choice "finish_reason" = given piece.finish ∧
    member delta "content" = given piece.content ∧
    member delta "reasoning_content" = given piece.reasoning ∧
    (member delta "tool_calls" = .none ∧ piece.calls = [] ∨
      ∃ items, member delta "tool_calls" = .list items ∧ List.Forall₂ IsCallPiece items piece.calls)

/-- **A count of a usage**: that of the first name that is there, else a default. -/
inductive IsCount (usage : PyData) (default : ℤ) : List (List PyKey) → ℤ → Prop
  | absent : IsCount usage default [] default
  | found {path : List PyKey} {paths : List (List PyKey)} {value : ℤ}
      (leads : usage.follow path = some (.int value)) :
      IsCount usage default (path :: paths) value
  | later {path : List PyKey} {paths : List (List PyKey)} {value : ℤ}
      (nothing : (usage.follow path).getD .none = .none)
      (count : IsCount usage default paths value) :
      IsCount usage default (path :: paths) value

/-- The counts of a usage. -/
structure IsUsage (usage : PyData) (counts : UsageCounts) : Prop where
  prompt : IsCount usage 0 [["prompt_tokens"], ["input_tokens"]] counts.promptTokens
  completion : IsCount usage 0 [["completion_tokens"], ["output_tokens"]] counts.completionTokens
  total : IsCount usage (counts.promptTokens + counts.completionTokens)
    [["total_tokens"]] counts.totalTokens
  promptDetails : ∀ detail ∈ [("cached_tokens", counts.cachedTokens),
    ("audio_tokens", counts.promptAudioTokens)],
    IsCount usage 0 [["prompt_tokens_details", detail.1],
      ["input_tokens_details", detail.1]] detail.2
  completionDetails : ∀ detail ∈ [("reasoning_tokens", counts.reasoningTokens),
      ("audio_tokens", counts.completionAudioTokens),
      ("accepted_prediction_tokens", counts.acceptedPredictionTokens),
      ("rejected_prediction_tokens", counts.rejectedPredictionTokens)],
    IsCount usage 0 [["completion_tokens_details", detail.1],
      ["output_tokens_details", detail.1]] detail.2

/-- A chunk without choices, with a usage. -/
structure IsUsageChunk (payload : PyData) (created : Option ℤ) (counts : UsageCounts) : Prop where
  members : ∃ members usage, payload = .dict members ∧
    member members "created" = (created.map PyData.int).getD .none ∧
    member members "choices" = .list [] ∧ member members "usage" = .dict usage ∧
    IsUsage (.dict usage) counts

/-- What a frame is. -/
inductive Event where
  | comment
  | piece (created : Option ℤ) (piece : Piece)
  | usage (created : Option ℤ) (counts : UsageCounts)

/-- A frame of an event: a comment, or the JSON of a chunk. -/
inductive IsFrame (calls : CollectCalls) : Item → Event → Prop
  | comment {item : Item} {raw : PyText} (isRaw : rawText item = .ok raw)
      (tells : saysOf raw = .skip) :
      IsFrame calls item .comment
  | piece {item : Item} {raw text : PyText} {payload : PyData} {created : Option ℤ} {piece : Piece}
      (isRaw : rawText item = .ok raw) (tells : saysOf raw = .data text)
      (parsed : calls.parseOwnedJsonValue text = .ok payload)
      (isPiece : IsPiece payload created piece) :
      IsFrame calls item (.piece created piece)
  | usage {item : Item} {raw text : PyText} {payload : PyData} {created : Option ℤ}
      {counts : UsageCounts}
      (isRaw : rawText item = .ok raw) (tells : saysOf raw = .data text)
      (parsed : calls.parseOwnedJsonValue text = .ok payload)
      (isUsage : IsUsageChunk payload created counts) :
      IsFrame calls item (.usage created counts)

/-- The chunks of events. -/
def pieces (events : List Event) : List Piece := events.filterMap fun
  | .piece _ piece => some piece
  | _ => none

/-- The tool call deltas of events. -/
def callPieces (events : List Event) : List CallPiece := (pieces events).flatMap Piece.calls

def Event.created : Event → Option ℤ
  | .comment => none
  | .piece created _ => created
  | .usage created _ => created

def Event.counts : Event → Option UsageCounts
  | .usage _ counts => some counts
  | _ => none

/-- A tool call of a message. -/
structure MessageCall where
  index : ℕ
  id : PyText
  name : PyText
  arguments : PyText

/-- An assistant message: its tool calls in the order of their indices, and what its stream says about
it. -/
structure Message where
  content : PyText
  reasoning : PyText
  calls : List MessageCall
  finish : Option PyText
  usage : Option UsageCounts
  created : Option ℤ
  ordered : calls.Pairwise fun first second => first.index < second.index

/-- **A message cut into chunks**, in any interleaving. -/
structure Fragments (message : Message) (events : List Event) : Prop where
  content : ((pieces events).filterMap Piece.content).flatten = message.content
  reasoning : ((pieces events).filterMap Piece.reasoning).flatten = message.reasoning
  known : ∀ call ∈ callPieces events, ∃ whole ∈ message.calls, whole.index = call.index
  calls : ∀ whole ∈ message.calls, let own := (callPieces events).filter (·.index = whole.index)
    own.filterMap CallPiece.id = [whole.id] ∧ own.filterMap CallPiece.name = [whole.name] ∧
      (own.filterMap CallPiece.arguments).flatten = whole.arguments
  finish : ∀ reason, message.finish = some reason ↔
    ∃ piece ∈ pieces events, piece.finish = some reason
  usage : events.filterMap Event.counts = message.usage.toList
  created : (events.filterMap Event.created).head? = message.created

/-- The texts that a tool call delta retains. -/
def CallPiece.texts (call : CallPiece) : List PyText :=
  call.id.toList ++ call.name.toList ++ call.arguments.toList

/-- The texts that a chunk retains. -/
def Piece.texts (piece : Piece) : List PyText :=
  piece.finish.toList ++ piece.content.toList ++ piece.reasoning.toList
    ++ piece.calls.flatMap CallPiece.texts

/-- The bytes of a text. -/
def textBytes (text : PyText) : ℕ := ((Utf8.encodePoints text).map List.length).getD 0

/-- The bytes of a frame. -/
def Item.bytes? : Item → ℕ
  | .text words => textBytes words
  | .bytes data => data.length
  | .none | .other => 0

/-- Frames and texts within the limits. -/
structure WithinLimits (limits : Limits) (message : Message) (items : List Item)
  (events : List Event) : Prop where
  positive : limits.maxBytes ≠ 0 ∧ limits.maxInputBytes ≠ 0 ∧ limits.maxFragments ≠ 0
    ∧ limits.maxToolCalls ≠ 0
  unicode : (∀ text, .text text ∈ items → (Utf8.encodePoints text).isSome) ∧
    ∀ piece ∈ pieces events, ∀ text ∈ piece.texts, (Utf8.encodePoints text).isSome
  frames : ∀ item ∈ items, item.bytes? ≤ limits.maxBytes
  input : (items.map Item.bytes?).sum ≤ limits.maxInputBytes
  texts : (((pieces events).flatMap Piece.texts).map textBytes).sum ≤ limits.maxBytes
  fragments : ((pieces events).flatMap Piece.texts).length ≤ limits.maxFragments
  toolCalls : message.calls.length ≤ limits.maxToolCalls

/-! ### Retaining -/

theorem encodePoints_length {text : PyText} {bytes : Bytes}
    (encodes : Utf8.encodePoints text = some bytes) :
    text.length ≤ bytes.length := by
  obtain ⟨letters, rfl, rfl⟩ := Utf8.encodePoints_eq_some_iff.mp encodes
  rw [List.length_map]
  induction letters with
  | nil => exact Nat.zero_le _
  | cons letter rest ih =>
    have encodes := ih (Utf8.encodePoints_toNat rest)
    have one : (String.utf8EncodeChar letter).length = letter.utf8Size :=
        String.length_utf8EncodeChar letter
    have pos := letter.utf8Size_pos
    rw [Utf8.encode_cons, List.length_append, List.length_cons]
    omega

theorem flatten_slices {size : ℕ} (positive : 0 < size) (text : PyText) :
    (slices size text).flatten = text := by
  have parts (count : ℕ) : ((List.range count).map fun index =>
      (text.drop (index * size)).take size).flatten =
      text.take (count * size) := by
    induction count with
    | zero => simp
    | succ count ih =>
      rw [List.range_succ, List.map_append, List.flatten_append, ih, Nat.succ_mul, List.take_add]
      simp
  have enough : text.length ≤ (text.length + size - 1) / size * size := by
    have := Nat.div_add_mod (text.length + size - 1) size
    have := Nat.mod_lt (text.length + size - 1) positive
    rw [Nat.mul_comm]
    omega
  rw [slices, parts, List.take_of_length_le enough]

theorem encodedSize_eq {remaining : ℕ} : (parts : List PyText) → {size : ℕ} → {bytes : Bytes} →
    Utf8.encodePoints parts.flatten = some bytes → size + bytes.length ≤ remaining →
    encodedSize remaining size parts = .ok (size + bytes.length)
  | [], size, bytes, encodes, _ => by
    cases encodes
    rfl
  | part :: rest, size, bytes, encodes, fits => by
    obtain ⟨front, behind, encodesPart, encodesRest, rfl⟩ := Utf8.encodePoints_append encodes
    rw [List.length_append] at fits ⊢
    rw [encodedSize, encodesPart]
    dsimp only
    rw [if_neg (by omega), encodedSize_eq rest encodesRest (by omega), Nat.add_assoc]

/-- What is counted of a text that is retained. -/
def Collected.kept (state : Collected) (text : PyText) : Collected :=
  { state with
    retainedBytes := state.retainedBytes + textBytes text
    retainedFragments := state.retainedFragments + 1 }

/-- There is room for texts. -/
structure Room (limits : Limits) (state : Collected) (texts : List PyText) : Prop where
  unicode : ∀ text ∈ texts, (Utf8.encodePoints text).isSome
  bytes : state.retainedBytes + (texts.map textBytes).sum ≤ limits.maxBytes
  fragments : state.retainedFragments + texts.length ≤ limits.maxFragments

section Retain

variable {limits : Limits} {state : Collected} {text : PyText} {texts : List PyText}

theorem Room.kept (room : Room limits state (text :: texts)) : Room limits
    (state.kept text) texts where
  unicode other among := room.unicode other (List.mem_cons_of_mem _ among)
  bytes := by
    have := room.bytes
    rw [List.map_cons, List.sum_cons] at this
    show state.retainedBytes + textBytes text + _ ≤ _
    omega
  fragments := by
    have := room.fragments
    rw [List.length_cons] at this
    show state.retainedFragments + 1 + _ ≤ _
    omega

/-- **A text for which there is room is retained.** -/
theorem Room.retain (room : Room limits state (text :: texts)) :
    retain limits state (.str text) = .ok (text, state.kept text) := by
  obtain ⟨bytes, encodes⟩ := Option.isSome_iff_exists.mp (room.unicode text List.mem_cons_self)
  have size : textBytes text = bytes.length := by rw [textBytes, encodes]; rfl
  have letters := encodePoints_length encodes
  have fits := room.bytes
  have few := room.fragments
  rw [List.map_cons, List.sum_cons, size] at fits
  rw [List.length_cons] at few
  have measured : encodedSize (limits.maxBytes - state.retainedBytes) 0 (slices (64 * 1024) text) =
      .ok bytes.length := by
    rw [encodedSize_eq (slices (64 * 1024) text)
      (by rw [flatten_slices (by decide)]; exact encodes) (by omega),
      Nat.zero_add]
  rw [Collector.retain]
  dsimp only
  rw [if_neg (by omega), measured]
  show (if limits.maxFragments < state.retainedFragments + 1 then _ else _) = _
  rw [if_neg (by omega)]
  show (if limits.maxBytes < state.retainedBytes + bytes.length then _ else _) = _
  rw [if_neg (by omega), Collected.kept, size]

/-- What is retained of a text that may be given. -/
def Collected.keptIf (state : Collected) (put : PyText → Collected → Collected) :
    Option PyText → Collected
  | some text => put text (state.kept text)
  | none => state

theorem Room.retainMember {value : Option PyText} (room : Room limits state (value.toList ++ texts))
    (put : PyText → Collected → Collected) :
    retainMember limits state (given value) put = .ok (state.keptIf put value) := by
  cases value with
  | none => rfl
  | some text =>
    show (Collector.retain limits state (.str text)).bind _ = _
    rw [room.retain]
    rfl

/-- A change that retains nothing. -/
def Quiet (put : PyText → Collected → Collected) : Prop := ∀ text state,
  (put text state).retainedBytes = state.retainedBytes ∧ (put text state).retainedFragments
    = state.retainedFragments

theorem Room.after {value : Option PyText} (room : Room limits state (value.toList ++ texts))
    {put : PyText → Collected → Collected} (quiet : Quiet put) : Room limits
      (state.keptIf put value) texts := by
  cases value with
  | none => exact room
  | some text =>
    obtain ⟨bytes, fragments⟩ := quiet text (state.kept text)
    have kept := room.kept
    exact ⟨kept.unicode, by rw [Collected.keptIf, bytes]; exact kept.bytes,
      by rw [Collected.keptIf, fragments]; exact kept.fragments⟩

end Retain

/-! ### Tool calls -/

/-- What a tool call delta does to its entry. -/
def Entry.add (entry : Entry) (call : CallPiece) : Entry where
  id := call.id.or entry.id
  name := call.name.or entry.name
  argumentsParts := entry.argumentsParts ++ call.arguments.toList

/-- An entry for an index, if there is none. -/
def Collected.entryFor (state : Collected) (index : ℤ) : Collected :=
  if (state.toolCallsByIndex.get index).isNone then state.setEntry index id else state

/-- A text is put into the entry of an index. -/
def putEntry (index : ℤ) (change : PyText → Entry → Entry) (text : PyText) (state : Collected) :
    Collected :=
  state.setEntry index (change text)

def Entry.withId (text : PyText) (entry : Entry) : Entry := { entry with id := some text }

def Entry.withName (text : PyText) (entry : Entry) : Entry := { entry with name := some text }

def Entry.withArguments (text : PyText) (entry : Entry) : Entry :=
  { entry with argumentsParts := entry.argumentsParts ++ [text] }

/-- What a tool call delta adds. -/
def Collected.addCall (state : Collected) (call : CallPiece) : Collected :=
  (((state.entryFor call.index).keptIf (putEntry call.index Entry.withId) call.id).keptIf
    (putEntry call.index Entry.withName) call.name).keptIf
      (putEntry call.index Entry.withArguments) call.arguments

/-- All but the tool calls and the counters. -/
def Collected.others (state : Collected) :
    List PyText × List PyText × ℕ × Option ℤ × UsageCounts × Bool × Option PyText :=
  (state.contentParts, state.reasoningParts, state.observedInputBytes, state.createdTs, state.usage,
    state.doneSeen, state.terminalFinishReason)

/-- The tool calls that are known have indices among these, which are not too many. -/
structure Indexed (limits : Limits) (all : List ℤ) (state : Collected) : Prop where
  known : ∀ index ∈ state.toolCallsByIndex.entries.map Prod.fst, index ∈ all
  few : all.length ≤ limits.maxToolCalls

section Calls

variable {limits : Limits} {state : Collected} {all : List ℤ} {call : CallPiece}

theorem others_entryFor (state : Collected) (index : ℤ) : (state.entryFor index).others
    = state.others := by
  rw [Collected.entryFor]
  split_ifs <;> rfl

theorem others_keptIf (index : ℤ) (change : PyText → Entry → Entry) (state : Collected)
    (value : Option PyText) :
    (state.keptIf (putEntry index change) value).others = state.others := by
  cases value with
  | none => rfl
  | some text => rfl

theorem others_addCall (state : Collected) (call : CallPiece) : (state.addCall call).others
    = state.others := by
  rw [Collected.addCall, others_keptIf, others_keptIf, others_keptIf, others_entryFor]

theorem get_setEntry (state : Collected) (index other : ℤ) (change : Entry → Entry) :
    (state.setEntry index change).toolCallsByIndex.get other =
      if other = index then some (change ((state.toolCallsByIndex.get index).getD {}))
      else state.toolCallsByIndex.get other :=
  Dict.get_set _ _ _ _

theorem get_entryFor (state : Collected) (index other : ℤ) :
    (state.entryFor index).toolCallsByIndex.get other =
      if other = index then some ((state.toolCallsByIndex.get index).getD {})
      else state.toolCallsByIndex.get other := by
  rw [Collected.entryFor]
  cases found : state.toolCallsByIndex.get index with
  | none =>
    rw [Option.isNone_none, if_pos rfl, get_setEntry, found]
    rfl
  | some entry =>
    rw [Option.isNone_some, if_neg Bool.false_ne_true]
    split_ifs with same
    · rw [same, found]
      rfl
    · rfl

/-- What the tool calls are behind a text that may be given. -/
theorem get_keptIf {index : ℤ} {entry : Entry} (change : PyText → Entry → Entry) {state : Collected}
    (found : state.toolCallsByIndex.get index = some entry) (value : Option PyText) (other : ℤ) :
    (state.keptIf (putEntry index change) value).toolCallsByIndex.get other =
      if other = index then some ((value.map fun text => change text entry).getD entry)
      else state.toolCallsByIndex.get other := by
  cases value with
  | none =>
    show state.toolCallsByIndex.get other = _
    split_ifs with same
    · rw [same, found]
      rfl
    · rfl
  | some text =>
    show ((state.kept text).setEntry index (change text)).toolCallsByIndex.get other = _
    rw [get_setEntry]
    show (if other = index then some (change text ((state.toolCallsByIndex.get index).getD {})) else
      state.toolCallsByIndex.get other) = _
    rw [found]
    rfl

/-- **The entry of a tool call delta.** -/
theorem get_addCall (state : Collected) (call : CallPiece) (other : ℤ) :
    (state.addCall call).toolCallsByIndex.get other =
      if other = call.index then some (((state.toolCallsByIndex.get call.index).getD {}).add call)
      else state.toolCallsByIndex.get other := by
  have entered := get_entryFor state call.index call.index
  rw [if_pos rfl] at entered
  have named := get_keptIf Entry.withId entered call.id call.index
  rw [if_pos rfl] at named
  have argued := get_keptIf Entry.withName named call.name call.index
  rw [if_pos rfl] at argued
  rw [Collected.addCall, get_keptIf Entry.withArguments argued]
  by_cases same : other = call.index
  · rw [if_pos same, if_pos same]
    obtain ⟨index, id, name, arguments⟩ := call
    cases id <;> cases name <;> cases arguments <;> simp
      [Entry.add, Entry.withId, Entry.withName, Entry.withArguments]
  · rw [if_neg same, if_neg same, get_keptIf Entry.withName named, if_neg same,
      get_keptIf Entry.withId entered, if_neg same, get_entryFor, if_neg same]

/-- The indices that are known. -/
def Collected.indices (state : Collected) : List ℤ := state.toolCallsByIndex.entries.map Prod.fst

theorem get_eq_none_iff {index : ℤ} : state.toolCallsByIndex.get index = none
    ↔ index ∉ state.indices := by
  constructor
  · intro absent among
    obtain ⟨entry, listed, rfl⟩ := List.mem_map.mp among
    have apart := List.lookup_eq_none_iff.mp absent entry listed
    exact absurd apart (by simp)
  · exact Dict.lookup_eq_none

theorem mem_indices_addCall {index : ℤ} :
    index ∈ (state.addCall call).indices ↔ index = call.index ∨ index ∈ state.indices := by
  have known (state : Collected) : index ∈ state.indices
      ↔ state.toolCallsByIndex.get index ≠ none := by
    rw [ne_eq, get_eq_none_iff, not_not]
  rw [known, known, get_addCall]
  split_ifs with same
  · simp [same]
  · simp [same]

theorem Indexed.addCall (indexed : Indexed limits all state) (among : (call.index : ℤ) ∈ all) :
    Indexed limits all (state.addCall call) where
  known index isKnown := by
    rcases mem_indices_addCall.mp isKnown with rfl | known
    · exact among
    · exact indexed.known index known
  few := indexed.few

theorem Indexed.place (indexed : Indexed limits all state) {index : ℤ} (among : index ∈ all) :
    ¬ ((state.toolCallsByIndex.get index).isNone
      ∧ limits.maxToolCalls ≤ state.toolCallsByIndex.entries.length) := by
  rintro ⟨isNone, full⟩
  have absent : index ∉ state.indices := get_eq_none_iff.mp (Option.isNone_iff_eq_none.mp isNone)
  have distinct : (index :: state.indices).Nodup :=
      List.nodup_cons.mpr ⟨absent, state.toolCallsByIndex.distinct⟩
  have inside : index :: state.indices ⊆ all := List.cons_subset.mpr ⟨among, indexed.known⟩
  have count := (List.subperm_of_subset distinct inside).length_le
  have length : state.indices.length = state.toolCallsByIndex.entries.length := List.length_map _
  have := indexed.few
  rw [List.length_cons, length] at count
  omega

/-- **A tool call delta** is taken. -/
theorem processToolCall_piece {texts : List PyText} {item : PyData} (isCall : IsCallPiece item call)
    (room : Room limits state (call.texts ++ texts)) (indexed : Indexed limits all state)
    (among : (call.index : ℤ) ∈ all) :
    processToolCall limits state item = .ok (state.addCall call) ∧ Room limits
      (state.addCall call) texts := by
  obtain ⟨members, rfl, isIndex, isId, function⟩ := isCall.members
  have quiet (change : PyText → Entry → Entry) : Quiet (putEntry call.index change) :=
      fun _ _ => ⟨rfl, rfl⟩
  have entered : Room limits (state.entryFor call.index) (call.texts ++ texts) := by
    rw [Collected.entryFor]
    split_ifs
    · exact ⟨room.unicode, room.bytes, room.fragments⟩
    · exact room
  rw [CallPiece.texts, List.append_assoc, List.append_assoc] at entered
  have named := entered.after (quiet Entry.withId)
  have argued := named.after (quiet Entry.withName)
  refine ⟨?_, argued.after (quiet Entry.withArguments)⟩
  have identified := entered.retainMember (putEntry call.index Entry.withId)
  have positive : ¬ ((call.index : ℤ) < 0) := by omega
  rw [processToolCall]
  dsimp only
  rw [isIndex]
  dsimp only
  rw [if_neg positive, if_neg (indexed.place among), isId]
  show (retainMember limits (state.entryFor call.index) (given call.id)
      (putEntry call.index Entry.withId)).bind _ = _
  rw [identified]
  rcases function with ⟨noFunction, noName, noArguments⟩ |
    ⟨function, isFunction, isName, isArguments⟩
  · rw [Collected.addCall, noName, noArguments, noFunction]
    rfl
  · rw [isFunction]
    show processFunction limits _ call.index function = _
    rw [processFunction, isName]
    show (retainMember limits _ (given call.name) (putEntry call.index Entry.withName)).bind _ = _
    rw [named.retainMember (putEntry call.index Entry.withName), isArguments, Collected.addCall]
    cases isGiven : call.arguments with
    | none => rfl
    | some words =>
      have last := argued.retainMember (putEntry call.index Entry.withArguments)
      rw [isGiven] at last
      exact last

/-- **The tool call deltas of a chunk** are taken. -/
theorem processToolCalls_pieces {texts : List PyText} {items : List PyData} {deltas : List CallPiece}
    (areCalls : List.Forall₂ IsCallPiece items deltas) :
    ∀ {state : Collected}, Room limits state (deltas.flatMap CallPiece.texts ++ texts) →
      Indexed limits all state →
      (∀ call ∈ deltas, (call.index : ℤ) ∈ all) →
      items.foldlM (processToolCall limits) state = .ok (deltas.foldl Collected.addCall state) ∧
        Room limits (deltas.foldl Collected.addCall state) texts ∧
        Indexed limits all (deltas.foldl Collected.addCall state) := by
  induction areCalls with
  | nil => exact fun room indexed _ => ⟨rfl, room, indexed⟩
  | @cons item call items deltas isCall areCalls ih =>
    intro state room indexed among
    rw [List.flatMap_cons, List.append_assoc] at room
    have here := among call List.mem_cons_self
    obtain ⟨taken, roomHere⟩ := processToolCall_piece isCall room indexed here
    obtain ⟨later, roomLater, indexedLater⟩ := ih roomHere (indexed.addCall here) fun other there =>
      among other (List.mem_cons_of_mem _ there)
    refine ⟨?_, roomLater, indexedLater⟩
    rw [List.foldlM_cons, taken]
    exact later

end Calls

/-! ### Chunks -/

def putFinish (text : PyText) (state : Collected) : Collected :=
    { state with terminalFinishReason := some text }

def putContent (text : PyText) (state : Collected) : Collected :=
  { state with contentParts := state.contentParts ++ [text] }

def putReasoning (text : PyText) (state : Collected) : Collected :=
  { state with reasoningParts := state.reasoningParts ++ [text] }

/-- The texts of a chunk besides its tool calls. -/
def Collected.addTexts (state : Collected) (piece : Piece) : Collected :=
  ((state.keptIf putFinish piece.finish).keptIf putContent piece.content).keptIf putReasoning
    piece.reasoning

/-- What a chunk adds. -/
def Collected.addPiece (state : Collected) (piece : Piece) : Collected :=
  piece.calls.foldl Collected.addCall (state.addTexts piece)

/-- `created`, of the first chunk that gives it. -/
def Collected.addCreated (state : Collected) (created : Option ℤ) : Collected :=
  { state with createdTs := state.createdTs.or created }

/-- What an event adds. -/
def Collected.addEvent (state : Collected) : Event → Collected
  | .comment => state
  | .piece created piece => (state.addCreated created).addPiece piece
  | .usage created counts => { state.addCreated created with usage := counts }

/-- The finish reasons are all this one. -/
structure Agrees (reason : Option PyText) (state : Collected) : Prop where
  terminal : state.terminalFinishReason = none ∨ state.terminalFinishReason = reason

section Chunks

variable {calls : CollectCalls} {limits : Limits} {state : Collected} {all : List ℤ}
  {reason : Option PyText}
  {piece : Piece} {texts : List PyText}

theorem quiet_finish : Quiet putFinish := fun _ _ => ⟨rfl, rfl⟩

theorem quiet_content : Quiet putContent := fun _ _ => ⟨rfl, rfl⟩

theorem quiet_reasoning : Quiet putReasoning := fun _ _ => ⟨rfl, rfl⟩

theorem processFinishReason_given {finish : Option PyText}
    (room : Room limits state (finish.toList ++ texts))
    (agrees : Agrees reason state) (same : ∀ text, finish = some text → reason = some text) :
    processFinishReason limits state (given finish) = .ok (state.keptIf putFinish finish) := by
  cases finish with
  | none => rfl
  | some text =>
    have fine : ¬ (state.kept text).terminalFinishReason.any (· ≠ text) = true := by
      show ¬ state.terminalFinishReason.any (· ≠ text) = true
      rcases agrees.terminal with isNone | isReason
      · rw [isNone]
        simp
      · rw [isReason, same text rfl]
        simp
    show (retain limits state (.str text)).bind _ = _
    rw [room.retain]
    show (if (state.kept text).terminalFinishReason.any (· ≠ text) = true then _ else _) = _
    rw [if_neg fine]
    rfl

theorem terminal_addPiece (state : Collected) (piece : Piece) :
    (state.addPiece piece).terminalFinishReason = piece.finish.or state.terminalFinishReason := by
  have calls (deltas : List CallPiece) (state : Collected) :
      (deltas.foldl Collected.addCall state).others = state.others := by
    induction deltas generalizing state with
    | nil => rfl
    | cons call rest ih => rw [List.foldl_cons, ih, others_addCall]
  have same : (state.addPiece piece).terminalFinishReason =
      (state.addTexts piece).terminalFinishReason :=
    congrArg (fun others => others.2.2.2.2.2.2) (calls piece.calls (state.addTexts piece))
  rw [same, Collected.addTexts]
  cases piece.finish <;> cases piece.content <;> cases piece.reasoning <;> rfl

/-- What a chunk needs. -/
structure Takes (all : List ℤ) (reason : Option PyText) (piece : Piece) : Prop where
  indices : ∀ call ∈ piece.calls, (call.index : ℤ) ∈ all
  finish : ∀ text, piece.finish = some text → reason = some text

/-- What holds between two chunks, with room for texts. -/
structure Going (limits : Limits) (all : List ℤ) (reason : Option PyText) (texts : List PyText)
  (state : Collected) :
    Prop where
  room : Room limits state texts
  indexed : Indexed limits all state
  agrees : Agrees reason state

theorem indices_addTexts (state : Collected) (piece : Piece) :
    (state.addTexts piece).toolCallsByIndex = state.toolCallsByIndex := by
  rw [Collected.addTexts]
  cases piece.finish <;> cases piece.content <;> cases piece.reasoning <;> rfl

/-- **A choice** is taken. -/
theorem processChoice_piece {choice delta : List (String × PyData)}
    (isDelta : (member choice "delta").orElse (.dict []) = .dict delta)
    (isFinish : member choice "finish_reason" = given piece.finish)
    (isContent : member delta "content" = given piece.content)
    (isReasoning : member delta "reasoning_content" = given piece.reasoning)
    (areCalls : member delta "tool_calls" = .none ∧ piece.calls = [] ∨
      ∃ items, member delta "tool_calls" = .list items ∧ List.Forall₂ IsCallPiece items piece.calls)
    (takes : Takes all reason piece) (going : Going limits all reason (piece.texts ++ texts) state) :
    processChoice limits state (.dict choice) = .ok (state.addPiece piece) ∧
      Going limits all reason texts (state.addPiece piece) := by
  have room := going.room
  rw [Piece.texts, List.append_assoc, List.append_assoc, List.append_assoc] at room
  have afterFinish := room.after quiet_finish
  have afterContent := afterFinish.after quiet_content
  have afterReasoning := afterContent.after quiet_reasoning
  have indexed : Indexed limits all (state.addTexts piece) :=
    ⟨by rw [indices_addTexts]; exact going.indexed.known, going.indexed.few⟩
  have agrees : Agrees reason (state.addPiece piece) := by
    refine ⟨?_⟩
    rw [terminal_addPiece]
    cases isGiven : piece.finish with
    | none => exact going.agrees.terminal
    | some text => exact .inr (takes.finish text isGiven).symm
  rw [processChoice, isDelta]
  dsimp only
  rw [isFinish, processFinishReason_given room going.agrees takes.finish]
  show (retainMember limits _ (member delta "content") putContent).bind _ = _ ∧ _
  rw [isContent, afterFinish.retainMember putContent]
  show (retainMember limits _ (member delta "reasoning_content") putReasoning).bind _ = _ ∧ _
  rw [isReasoning, afterContent.retainMember putReasoning]
  rcases areCalls with ⟨noCalls, none⟩ | ⟨items, isItems, areCalls⟩
  · have empty : state.addPiece piece = state.addTexts piece := by
      rw [Collected.addPiece, none]
      rfl
    rw [none] at afterReasoning
    rw [empty] at agrees ⊢
    rw [noCalls]
    exact ⟨rfl, afterReasoning, indexed, agrees⟩
  · rw [isItems]
    obtain ⟨taken, roomAfter, indexedAfter⟩ :=
      processToolCalls_pieces areCalls afterReasoning indexed takes.indices
    exact ⟨taken, roomAfter, indexedAfter, agrees⟩

theorem processCreated_given (state : Collected) (created : Option ℤ) :
    processCreated calls state ((created.map PyData.int).getD .none) = .ok
      (state.addCreated created) := by
  obtain ⟨contentParts, reasoningParts, toolCalls, bytes, fragments, input, createdTs, usage, done,
    terminal⟩ := state
  cases createdTs <;> cases created <;> rfl

/-- **A chunk** is taken. -/
theorem processPayload_piece {payload : PyData} {created : Option ℤ}
    (isPiece : IsPiece payload created piece)
    (takes : Takes all reason piece) (going : Going limits all reason (piece.texts ++ texts) state) :
    processPayload calls limits state payload = .ok (state.addEvent (.piece created piece)) ∧
      Going limits all reason texts (state.addEvent (.piece created piece)) := by
  obtain ⟨members, choice, delta, rfl, isCreated, isChoices, isDelta, isFinish, isContent,
    isReasoning, areCalls⟩ :=
    isPiece.members
  have dated : Going limits all reason (piece.texts ++ texts) (state.addCreated created) :=
    ⟨⟨going.room.unicode, going.room.bytes, going.room.fragments⟩,
      ⟨going.indexed.known, going.indexed.few⟩,
      ⟨going.agrees.terminal⟩⟩
  obtain ⟨taken, goingAfter⟩ :=
    processChoice_piece isDelta isFinish isContent isReasoning areCalls takes dated
  refine ⟨?_, goingAfter⟩
  rw [processPayload, isCreated, processCreated_given, isChoices]
  show (processChoice limits (state.addCreated created) (.dict choice)).bind _ = _
  rw [taken]
  rfl

theorem integer_eq {usage : PyData} {default value : ℤ} {paths : List (List PyKey)}
    (count : IsCount usage default paths value) : integer calls usage default paths = .ok value := by
  induction count with
  | absent => rfl
  | @found path paths value leads =>
    rw [integer, leads]
    by_cases zero : value = 0
    · rw [zero]
      rfl
    · have truthy : (PyData.int value).truthy = true := bne_iff_ne.mpr zero
      have read : intOf calls ((PyData.int value).orElse (.int 0)) = .ok value := by
        rw [PyData.orElse, if_pos truthy]
        rfl
      dsimp only [Option.getD]
      rw [read]
  | later nothing _ ih =>
    rw [integer, nothing]
    exact ih

/-- **The counts of a usage** are read. -/
theorem usageSnapshot_eq {usage : List (String × PyData)} {counts : UsageCounts}
    (isUsage : IsUsage (.dict usage) counts) : usageSnapshot calls (.dict usage) = .ok counts := by
  have prompt := isUsage.promptDetails
  have completion := isUsage.completionDetails
  simp only [List.forall_mem_cons] at prompt completion
  obtain ⟨cached, promptAudio, -⟩ := prompt
  obtain ⟨reasoning, completionAudio, accepted, rejected, -⟩ := completion
  have goesOn {α β : Type} (value : α) (next : α → Except CollectError β) :
      (Except.ok value >>= next) = next value :=
    rfl
  have same : (PyData.dict usage).asDict.getD [] = usage := rfl
  simp only [usageSnapshot, same, integer_eq isUsage.prompt, integer_eq isUsage.completion,
    integer_eq isUsage.total,
    integer_eq cached, integer_eq promptAudio, integer_eq reasoning, integer_eq completionAudio,
      integer_eq accepted,
    integer_eq rejected, goesOn]
  rfl

/-- **A chunk of usage** is taken. -/
theorem processPayload_usage {payload : PyData} {created : Option ℤ} {counts : UsageCounts}
    (isUsage : IsUsageChunk payload created counts) :
    processPayload calls limits state payload = .ok (state.addEvent (.usage created counts)) := by
  obtain ⟨members, usage, rfl, isCreated, isChoices, isDict, areCounts⟩ := isUsage.members
  rw [processPayload, isCreated, processCreated_given, isChoices, isDict]
  show (usageSnapshot calls (.dict usage)).bind _ = _
  rw [usageSnapshot_eq areCounts]
  rfl

end Chunks

/-! ### Frames -/

/-- The texts that an event retains. -/
def Event.texts : Event → List PyText
  | .piece _ chunk => chunk.texts
  | _ => []

/-- What an event needs. -/
def Event.Takes (all : List ℤ) (reason : Option PyText) : Event → Prop
  | .piece _ chunk => Collector.Takes all reason chunk
  | _ => True

/-- What a frame adds. -/
def Collected.addFrame (state : Collected) (item : Item) (event : Event) : Collected :=
  Collected.addEvent { state with observedInputBytes :=
    state.observedInputBytes + item.bytes? } event

/-- A frame within the limits. -/
structure Fits (limits : Limits) (item : Item) : Prop where
  unicode : ∀ text, item = .text text → (Utf8.encodePoints text).isSome
  small : item.bytes? ≤ limits.maxBytes

section Frames

variable {calls : CollectCalls} {limits : Limits} {all : List ℤ} {reason : Option PyText}
  {texts : List PyText}

section Says

variable {front text back rest : PyText}

theorem dropWhile_padded (spaces : ∀ point ∈ front, PyText.isSpace point = true)
    (letter : ∃ first, text.head? = some first ∧ PyText.isSpace first = false) :
    (front ++ text).dropWhile PyText.isSpace = text := by
  obtain ⟨first, isFirst, letter⟩ := letter
  rw [List.dropWhile_append_of_pos spaces]
  cases text with
  | nil => cases isFirst
  | cons other more =>
    obtain rfl := Option.some.inj isFirst
    exact List.dropWhile_cons_of_neg (by rw [letter]; exact Bool.false_ne_true)

/-- A text between spaces that begins and ends with a letter. -/
theorem strip_padded (spacesFront : ∀ point ∈ front, PyText.isSpace point = true)
    (spacesBack : ∀ point ∈ back, PyText.isSpace point = true)
    (first : ∃ point, text.head? = some point ∧ PyText.isSpace point = false)
    (last : ∃ point, text.getLast? = some point ∧ PyText.isSpace point = false) :
    PyText.strip (front ++ text ++ back) = text := by
  obtain ⟨point, isFirst, letter⟩ := first
  rw [PyText.strip, List.append_assoc, dropWhile_padded spacesFront
    ⟨point, by rw [List.head?_append, isFirst]; rfl, letter⟩,
    List.reverse_append, dropWhile_padded
      (fun point among => spacesBack point (List.mem_reverse.mp among))
      (by rwa [List.head?_reverse]), List.reverse_reverse]

/-- **A frame of data.** -/
theorem saysOf_data (spacesFront : ∀ point ∈ front, PyText.isSpace point = true)
    (spacesBack : ∀ point ∈ back, PyText.isSpace point = true)
    (first : ∃ point, text.head? = some point ∧ PyText.isSpace point = false)
    (last : ∃ point, text.getLast? = some point ∧ PyText.isSpace point = false) :
    saysOf (Utf8.points "data:" ++ front ++ text ++ back) =
      if text = Utf8.points "[DONE]" then .done else .data text := by
  obtain ⟨point, isLast, letter⟩ := last
  have stripped : PyText.strip (Utf8.points "data:" ++ front ++ text ++ back) = Utf8.points "data:"
      ++ (front ++ text) := by
    have padded := @strip_padded [] (Utf8.points "data:" ++ (front ++ text)) back
        (fun _ among => by cases among)
      spacesBack ⟨100, rfl, by decide⟩
      ⟨point, by rw [List.getLast?_append, List.getLast?_append, isLast]; rfl, letter⟩
    rwa [List.nil_append, ← List.append_assoc] at padded
  have inner := @strip_padded front text [] spacesFront (fun _ among => by cases among) first
      ⟨point, isLast, letter⟩
  rw [List.append_nil] at inner
  have dropped : (Utf8.points "data:" ++ (front ++ text)).drop 5 = front ++ text := rfl
  rw [saysOf, stripped, if_neg (by rintro (nothing | colon) <;> simp_all [Utf8.points])]
  dsimp only
  rw [if_pos (List.prefix_append _ _), dropped, inner]

theorem saysOf_comment (rest : PyText) : saysOf (58 :: rest) = .skip := by
  have colon : ∃ kept, PyText.strip (58 :: rest) = 58 :: kept := by
    have whole : (58 :: rest).dropWhile PyText.isSpace = 58 :: rest :=
        List.dropWhile_cons_of_neg (by decide)
    rw [PyText.strip, whole, List.reverse_cons, List.dropWhile_append]
    split
    · exact ⟨[], by decide⟩
    · exact ⟨_, by rw [List.reverse_append]; rfl⟩
  obtain ⟨kept, isKept⟩ := colon
  rw [saysOf, isKept]
  exact if_pos (.inr rfl)

end Says

theorem frameBytes_eq {item : Item} {raw : PyText} (fits : Fits limits item)
    (isRaw : rawText item = .ok raw) :
    frameBytes limits item = .ok item.bytes? := by
  cases item with
  | none => cases isRaw
  | other => cases isRaw
  | bytes data => rfl
  | text words =>
    obtain ⟨bytes, encodes⟩ := Option.isSome_iff_exists.mp (fits.unicode words rfl)
    have size : textBytes words = bytes.length := by rw [textBytes, encodes]; rfl
    have small : bytes.length ≤ limits.maxBytes := size ▸ fits.small
    have letters := encodePoints_length encodes
    rw [frameBytes, if_neg (by omega), encodedSize_eq (slices (64 * 1024) words)
      (by rw [flatten_slices (by decide)]; exact encodes) (by omega), Nat.zero_add]
    exact congrArg Except.ok size.symm

theorem ne_none_of_rawText {item : Item} {raw : PyText} (isRaw : rawText item = .ok raw) :
    item ≠ .none := by
  rintro rfl
  cases isRaw

/-- The loop over the frames, one frame further. -/
theorem collectItems_step {item : Item} {raw : PyText} {state : Collected} (rest : List Item)
    (fits : Fits limits item) (isRaw : rawText item = .ok raw)
    (input : state.observedInputBytes + item.bytes? ≤ limits.maxInputBytes) :
    collectItems calls limits (item :: rest) state =
      let counted := { state with observedInputBytes := state.observedInputBytes + item.bytes? }
      match saysOf raw with
      | .skip => collectItems calls limits rest counted
      | .done => .ok { counted with doneSeen := true }
      | .data text =>
        match calls.parseOwnedJsonValue text with
        | .ok payload => (processPayload calls limits counted payload).bind fun state =>
          collectItems calls limits rest state
        | .error .notJson =>
          .error (.protocol "chat completion stream contains invalid or excessive JSON")
        | .error .other => .error .parsing := by
  have small := fits.small
  have notNone : item = .none → False := ne_none_of_rawText isRaw
  rw [collectItems, frameBytes_eq fits isRaw]
  · show (if limits.maxBytes < item.bytes? then _ else _) = _
    rw [if_neg (by omega)]
    show (if limits.maxInputBytes < state.observedInputBytes + item.bytes? then _ else _) = _
    rw [if_neg (by omega), isRaw]
    rfl
  · exact notNone

/-- **A frame** is taken. -/
theorem collectItems_frame {item : Item} {event : Event} {state : Collected} (rest : List Item)
    (isFrame : IsFrame calls item event) (fits : Fits limits item)
    (input : state.observedInputBytes + item.bytes? ≤ limits.maxInputBytes)
      (takes : event.Takes all reason)
    (going : Going limits all reason (event.texts ++ texts) state) :
    collectItems calls limits (item :: rest) state = collectItems calls limits rest
      (state.addFrame item event) ∧
      Going limits all reason texts (state.addFrame item event) := by
  have counted : Going limits all reason (event.texts ++ texts)
      { state with observedInputBytes := state.observedInputBytes + item.bytes? } :=
    ⟨⟨going.room.unicode, going.room.bytes, going.room.fragments⟩,
      ⟨going.indexed.known, going.indexed.few⟩,
      ⟨going.agrees.terminal⟩⟩
  cases isFrame with
  | comment isRaw tells =>
    rw [collectItems_step rest fits isRaw input, tells]
    exact ⟨rfl, counted⟩
  | piece isRaw tells parsed isPiece =>
    obtain ⟨taken, goingAfter⟩ := @processPayload_piece calls _ _ _ _ _ _ _ _ isPiece takes counted
    rw [collectItems_step rest fits isRaw input, tells]
    dsimp only
    rw [parsed]
    dsimp only
    rw [taken]
    exact ⟨rfl, goingAfter⟩
  | usage isRaw tells parsed isUsage =>
    rw [collectItems_step rest fits isRaw input, tells]
    dsimp only
    rw [parsed]
    dsimp only
    rw [processPayload_usage isUsage]
    exact ⟨rfl, ⟨counted.room.unicode, counted.room.bytes, counted.room.fragments⟩,
      ⟨counted.indexed.known, counted.indexed.few⟩, ⟨counted.agrees.terminal⟩⟩

end Frames

end UniApi.Streaming.Collector
