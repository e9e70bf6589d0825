/-
**A chat stream is collected to its message.**

* `Describes`: what was collected of events, kept by every frame (`Describes.addFrame`);
* `collectItems_frames`: a run over frames;
* `Fragments.finalToolCalls`: the tool calls, sorted by index, are those of the message;
* `collected_message`: the completion tells the message, however it was cut.
-/

import Mathlib.Algebra.Order.BigOperators.Group.List
import Mathlib.Data.List.Sort
import UniApi.Streaming.CollectorSteps

namespace UniApi.Streaming.Collector

open UniApi.Lib
open UniApi.Lib.PyData (lit)

/-! ### What was collected -/

/-- The tool call deltas of an index. -/
def own (deltas : List CallPiece) (index : ℤ) : List CallPiece :=
    deltas.filter fun call => (call.index : ℤ) = index

/-- The entry of an index. -/
def entryOf (deltas : List CallPiece) (index : ℤ) : Option Entry :=
  if (own deltas index).isEmpty then none else some ((own deltas index).foldl Entry.add {})

/-- **What was collected of events.** -/
structure Describes (events : List Event) (state : Collected) : Prop where
  content : state.contentParts = (pieces events).filterMap Piece.content
  reasoning : state.reasoningParts = (pieces events).filterMap Piece.reasoning
  calls : ∀ index, state.toolCallsByIndex.get index = entryOf (callPieces events) index
  created : state.createdTs = (events.filterMap Event.created).head?
  usage : state.usage = ((events.filterMap Event.counts).getLast?).getD {}
  terminal : state.terminalFinishReason = ((pieces events).filterMap Piece.finish).getLast?

section Describes

variable {events : List Event} {state : Collected}

theorem describes_nil : Describes [] {} := ⟨rfl, rfl, fun _ => rfl, rfl, rfl, rfl⟩

theorem entryOf_concat (deltas : List CallPiece) (call : CallPiece) (index : ℤ) :
    entryOf (deltas ++ [call]) index =
      if index = call.index then some (((entryOf deltas index).getD {}).add call)
        else entryOf deltas index := by
  have split : own (deltas ++ [call]) index = own deltas index ++ own [call] index :=
      List.filter_append _ _
  by_cases same : index = call.index
  · have alone : own [call] index = [call] := List.filter_cons_of_pos (by simp [same])
    rw [if_pos same, entryOf, split, alone, if_neg (by simp), List.foldl_append, entryOf]
    cases none : own deltas index with
    | nil => rfl
    | cons first rest => rfl
  · have nothing : own [call] index = [] :=
      List.filter_cons_of_neg (by simpa using fun is => same is.symm)
    rw [if_neg same, entryOf, split, nothing, List.append_nil, entryOf]

/-- The entries behind tool call deltas. -/
theorem get_foldl_addCall : (deltas done : List CallPiece) → {state : Collected} →
    (∀ index, state.toolCallsByIndex.get index = entryOf done index) → ∀ index,
    (deltas.foldl Collected.addCall state).toolCallsByIndex.get index = entryOf
      (done ++ deltas) index
  | [], done, state, before, index => by
    rw [List.append_nil]
    exact before index
  | call :: deltas, done, state, before, index => by
    have after (other : ℤ) : (state.addCall call).toolCallsByIndex.get other = entryOf
        (done ++ [call]) other := by
      rw [get_addCall, entryOf_concat, before, before]
      split_ifs with same
      · rw [same]
      · rfl
    have later := get_foldl_addCall deltas (done ++ [call]) after index
    rw [List.append_assoc] at later
    exact later

theorem pieces_append (first second : List Event) : pieces (first ++ second) = pieces first
    ++ pieces second :=
  List.filterMap_append

theorem others_foldl_addCall (deltas : List CallPiece) (state : Collected) :
    (deltas.foldl Collected.addCall state).others = state.others := by
  induction deltas generalizing state with
  | nil => rfl
  | cons call rest ih => rw [List.foldl_cons, ih, others_addCall]

/-- What a chunk adds, besides tool calls. -/
theorem others_addPiece (state : Collected) (piece : Piece) : (state.addPiece piece).others =
    (state.contentParts ++ piece.content.toList, state.reasoningParts ++ piece.reasoning.toList,
      state.observedInputBytes, state.createdTs, state.usage, state.doneSeen,
      piece.finish.or state.terminalFinishReason) := by
  rw [Collected.addPiece, others_foldl_addCall, Collected.addTexts]
  cases piece.finish <;> cases piece.content <;> cases piece.reasoning <;>
    simp [Collected.keptIf, Collected.others, putFinish, putContent, putReasoning, Collected.kept]

section Concat

variable {α β : Type} (found : α → Option β) (items : List α) (item : α)

theorem filterMap_concat : (items ++ [item]).filterMap found = items.filterMap found ++
    (found item).toList := by
  rw [List.filterMap_append]
  cases isFound : found item <;> simp [isFound]

theorem head?_filterMap_concat :
    ((items ++ [item]).filterMap found).head? = (items.filterMap found).head?.or (found item) := by
  rw [filterMap_concat, List.head?_append]
  cases found item <;> rfl

theorem getLast?_filterMap_concat :
    ((items ++ [item]).filterMap found).getLast? = (found item).or
      (items.filterMap found).getLast? := by
  rw [filterMap_concat, List.getLast?_append]
  cases found item <;> rfl

end Concat

/-- **What was collected, one frame later.** -/
theorem Describes.addFrame (describes : Describes events state) (item : Item) (event : Event) :
    Describes (events ++ [event]) (state.addFrame item event) := by
  have created := head?_filterMap_concat Event.created events event
  have counts := getLast?_filterMap_concat Event.counts events event
  rw [← describes.created] at created
  cases event with
  | comment =>
    have same : pieces (events ++ [.comment]) = pieces events :=
        (pieces_append _ _).trans (List.append_nil _)
    refine ⟨?_, ?_, ?_, ?_, ?_, ?_⟩
    · rw [same]; exact describes.content
    · rw [same]; exact describes.reasoning
    · rw [callPieces, same]; exact describes.calls
    · rw [created]; exact (Option.or_none).symm
    · rw [counts]; exact describes.usage
    · rw [same]; exact describes.terminal
  | usage given total =>
    have same : pieces (events ++ [.usage given total]) = pieces events :=
      (pieces_append _ _).trans (List.append_nil _)
    refine ⟨?_, ?_, ?_, ?_, ?_, ?_⟩
    · rw [same]; exact describes.content
    · rw [same]; exact describes.reasoning
    · rw [callPieces, same]; exact describes.calls
    · rw [created]; rfl
    · rw [counts]; rfl
    · rw [same]; exact describes.terminal
  | piece given chunk =>
    have same : pieces (events ++ [.piece given chunk]) = pieces events ++ [chunk] :=
        pieces_append _ _
    have others := others_addPiece
      (Collected.addCreated { state with observedInputBytes :=
        state.observedInputBytes + item.bytes? } given) chunk
    obtain ⟨content, reasoning, -, createdTs, usage, -, terminal⟩ := by
      simpa only [Collected.others, Prod.mk.injEq] using others
    refine ⟨?_, ?_, ?_, ?_, ?_, ?_⟩
    · rw [same, filterMap_concat, ← describes.content]
      exact content
    · rw [same, filterMap_concat, ← describes.reasoning]
      exact reasoning
    · rw [callPieces, same, List.flatMap_append, List.flatMap_singleton]
      exact get_foldl_addCall chunk.calls (callPieces events) (by
        rw [indices_addTexts]
        exact describes.calls)
    · rw [created]
      exact createdTs
    · rw [counts]
      exact usage.trans describes.usage
    · rw [same, getLast?_filterMap_concat, ← describes.terminal]
      exact terminal

end Describes

/-! ### A run over frames -/

section Run

variable {calls : CollectCalls} {limits : Limits} {all : List ℤ} {reason : Option PyText}

theorem input_addFrame (state : Collected) (item : Item) (event : Event) :
    (state.addFrame item event).observedInputBytes = state.observedInputBytes + item.bytes? := by
  cases event with
  | comment => rfl
  | usage created counts => rfl
  | piece created chunk =>
    have others := others_addPiece
      (Collected.addCreated { state with observedInputBytes :=
        state.observedInputBytes + item.bytes? } created) chunk
    obtain ⟨-, -, input, -, -, -, -⟩ := by simpa only [Collected.others, Prod.mk.injEq] using others
    exact input

/-- **Frames within the limits** are taken, one after the other. -/
theorem collectItems_frames {items : List Item} {events : List Event}
    (areFrames : List.Forall₂ (IsFrame calls) items events) :
    ∀ {state : Collected} {done : List Event}, (∀ item ∈ items, Fits limits item) →
      state.observedInputBytes + (items.map Item.bytes?).sum ≤ limits.maxInputBytes →
      (∀ event ∈ events, event.Takes all reason) → Going limits all reason
        (events.flatMap Event.texts) state →
      Describes done state → ∃ reached : Collected, Describes (done ++ events) reached ∧
        reached.observedInputBytes = state.observedInputBytes + (items.map Item.bytes?).sum ∧
        ∀ rest, collectItems calls limits (items ++ rest) state
          = collectItems calls limits rest reached := by
  induction areFrames with
  | nil =>
    intro state done _ _ _ _ describes
    exact ⟨state, by rwa [List.append_nil], rfl, fun _ => rfl⟩
  | @cons item event items events isFrame areFrames ih =>
    intro state done fits input takes going describes
    rw [List.map_cons, List.sum_cons] at input ⊢
    rw [List.flatMap_cons] at going
    have here : state.observedInputBytes + item.bytes? ≤ limits.maxInputBytes := by omega
    have taken (rest : List Item) := collectItems_frame rest isFrame
        (fits item List.mem_cons_self) here
      (takes event List.mem_cons_self) going
    have input' := input_addFrame state item event
    obtain ⟨reached, describesReached, inputReached, onwards⟩ := ih
      (fun next among => fits next (List.mem_cons_of_mem _ among)) (by omega)
      (fun next among => takes next (List.mem_cons_of_mem _ among)) (taken []).2
      (describes.addFrame item event)
    refine ⟨reached, ?_, by omega, fun rest => ?_⟩
    · rwa [List.append_assoc] at describesReached
    · rw [List.cons_append, (taken (items ++ rest)).1]
      exact onwards rest

/-- The frame behind which nothing is read. -/
structure IsLast (item : Item) : Prop where
  isDone : ∃ raw, rawText item = .ok raw ∧ saysOf raw = .done

end Run

/-! ### The tool calls of a message -/

/-- A tool call in the completion. -/
def MessageCall.data (call : MessageCall) : PyData :=
  .dict [("id", .str (if call.id = [] then Utf8.points "call_" ++ Utf8.points (toString call.index)
    else call.id)),
    ("type", lit "function"),
    ("function", .dict [("name", .str call.name), ("arguments", .str call.arguments)])]

section MessageCalls

variable {message : Message} {events : List Event}

theorem foldl_add (deltas : List CallPiece) (entry : Entry) : deltas.foldl Entry.add entry =
    ⟨(deltas.filterMap CallPiece.id).getLast?.or entry.id,
      (deltas.filterMap CallPiece.name).getLast?.or entry.name,
      entry.argumentsParts ++ deltas.filterMap CallPiece.arguments⟩ := by
  induction deltas using List.reverseRecOn with
  | nil => simp
  | append_singleton deltas call ih =>
    rw [List.foldl_concat, ih, Entry.add, getLast?_filterMap_concat, getLast?_filterMap_concat,
      filterMap_concat,
      List.append_assoc, Option.or_assoc, Option.or_assoc]

theorem Fragments.entry (fragments : Fragments message events) {whole : MessageCall}
    (among : whole ∈ message.calls) :
    ∃ parts, entryOf (callPieces events) whole.index = some ⟨some whole.id, some whole.name, parts⟩ ∧
      parts.flatten = whole.arguments := by
  obtain ⟨ids, names, arguments⟩ := fragments.calls whole among
  have same : own (callPieces events) whole.index = (callPieces events).filter
      (·.index = whole.index) :=
    List.filter_congr fun call _ => decide_eq_decide.mpr Nat.cast_inj
  refine ⟨_, ?_, arguments⟩
  rw [entryOf, same, foldl_add, ids, names]
  cases isOwn : (callPieces events).filter (·.index = whole.index) with
  | nil =>
    rw [isOwn] at ids
    cases ids
  | cons first rest => rfl

/-- An index is known when it is that of a tool call of the message. -/
theorem Fragments.known_iff (fragments : Fragments message events) {state : Collected}
    (describes : Describes events state) (index : ℤ) :
    index ∈ state.indices ↔ index ∈ message.calls.map fun call => (call.index : ℤ) := by
  have isKnown : index ∈ state.indices ↔ entryOf (callPieces events) index ≠ none := by
    rw [← describes.calls, ne_eq, get_eq_none_iff, not_not]
  rw [isKnown, List.mem_map]
  constructor
  · intro isSome
    obtain ⟨call, isOwn⟩ : ∃ call, call ∈ own (callPieces events) index := by
      refine List.exists_mem_of_ne_nil _ fun isNil => isSome ?_
      rw [entryOf, isNil]
      rfl
    obtain ⟨among, same⟩ := List.mem_filter.mp isOwn
    obtain ⟨whole, isWhole, there⟩ := fragments.known call among
    exact ⟨whole, isWhole, by rw [there]; exact of_decide_eq_true same⟩
  · rintro ⟨whole, isWhole, rfl⟩
    obtain ⟨parts, entry, -⟩ := fragments.entry isWhole
    rw [entry]
    exact Option.some_ne_none _

theorem Fragments.sorted (fragments : Fragments message events) {state : Collected}
    (describes : Describes events state) :
    state.indices.mergeSort (· ≤ ·) = message.calls.map fun call => (call.index : ℤ) := by
  have ordered : (message.calls.map fun call => (call.index : ℤ)).Pairwise (· < ·) :=
    List.pairwise_map.mpr (message.ordered.imp fun less => Int.ofNat_lt.mpr less)
  have same : state.indices.Perm (message.calls.map fun call => (call.index : ℤ)) :=
    (List.perm_ext_iff_of_nodup state.toolCallsByIndex.distinct ordered.nodup).mpr
      (fragments.known_iff describes)
  have sorted : (state.indices.mergeSort (· ≤ ·)).Pairwise fun first second : ℤ => first ≤ second :=
    List.pairwise_mergeSort' _ _
  exact ((List.mergeSort_perm _ _).trans same).eq_of_pairwise' sorted (ordered.imp le_of_lt)

/-- **The tool calls of the completion** are those of the message. -/
theorem Fragments.finalToolCalls (fragments : Fragments message events) {state : Collected}
    (describes : Describes events state) : finalToolCalls state.toolCallsByIndex =
      if message.calls = [] then .none else .list (message.calls.map MessageCall.data) := by
  have sorted := fragments.sorted describes
  have empty : state.toolCallsByIndex.entries = [] ↔ message.calls = [] := by
    have count := congrArg List.length sorted
    rw [List.length_mergeSort, List.length_map, Collected.indices, List.length_map] at count
    rw [← List.length_eq_zero_iff, ← List.length_eq_zero_iff, count]
  rw [Collector.finalToolCalls]
  by_cases none : message.calls = []
  · rw [if_pos (empty.mpr none), if_pos none]
  · rw [if_neg (mt empty.mp none), if_neg none]
    show PyData.list ((state.indices.mergeSort (· ≤ ·)).map _) = _
    rw [sorted, List.map_map]
    refine congrArg PyData.list (List.map_congr_left fun whole among => ?_)
    obtain ⟨parts, entry, joined⟩ := fragments.entry among
    show callData whole.index ((state.toolCallsByIndex.get whole.index).getD {}) = _
    rw [describes.calls, entry, MessageCall.data, ← joined]
    rfl

end MessageCalls

/-! ### The completion of a message -/

/-- The counts of a usage, with a total. -/
def withTotal (counts : UsageCounts) : UsageCounts :=
  { counts with
    totalTokens := if counts.totalTokens ≠ 0 then counts.totalTokens
      else counts.promptTokens + counts.completionTokens }

/-- The finish reason of a completion: the builder's, unless the stream gave another than `stop`. -/
def finishReasonOf (byBuilder : String) : Option PyText → PyText
  | some reason => if reason ≠ [] ∧ reason ≠ Utf8.points "stop" then reason
    else Utf8.points byBuilder
  | none => Utf8.points byBuilder

/-- The choice of a completion. -/
def choiceOf (data : PyData) (finish : PyText) : PyData :=
  .dict [("index", .int 0), ("message", data), ("logprobs", .none), ("finish_reason", .str finish)]

namespace Message

variable (calls : CollectCalls) (message : Message) (model role : PyData)

/-- The arguments of the builder for a message. -/
def arguments : BuilderArguments where
  timestamp := message.created.getD calls.now
  model := model
  content := textOrNone message.content
  role := role
  counts := withTotal (message.usage.getD {})
  reasoningContent := textOrNone message.reasoning

/-- The completion of a message. -/
def completion : PyData :=
  let arguments := message.arguments calls model role
  if message.calls = [] then
    completionData calls.toBuilderCalls arguments 0
      (choiceOf (messageOf arguments {}) (finishReasonOf "stop" message.finish))
      [("system_fingerprint", lit "fp_a7d06e42a7")]
  else
    completionData calls.toBuilderCalls arguments 1
      (choiceOf (toolMessage .none (.list (message.calls.map MessageCall.data)))
        (finishReasonOf "tool_calls" message.finish))
      [("service_tier", lit "default"), ("system_fingerprint", lit "fp_4691090a87")]

end Message

section Completion

variable {calls : CollectCalls} {message : Message} {events : List Event} {state : Collected}
  {model role : PyData}

/-- The finish reason of a completion is replaced by that of the stream. -/
theorem override_completionData (builder : BuilderCalls) (arguments : BuilderArguments) (draw : ℕ)
    (data : PyData)
    (byBuilder : String) (others : List (String × PyData)) (finish : Option PyText) :
    (match finish with
      | some reason =>
        if reason ≠ [] ∧ reason ≠ Utf8.points "stop" then overrideFinishReason
          (completionData builder arguments draw (completionChoice data byBuilder) others) reason
        else .ok (completionData builder arguments draw (completionChoice data byBuilder) others)
      | none => .ok (completionData builder arguments draw
        (completionChoice data byBuilder) others)) =
      Except.ok (completionData builder arguments draw
        (choiceOf data (finishReasonOf byBuilder finish)) others) := by
  cases finish with
  | none => rfl
  | some reason =>
    dsimp only [finishReasonOf]
    split_ifs <;> rfl

theorem Fragments.terminal (fragments : Fragments message events) :
    ((pieces events).filterMap Piece.finish).getLast? = message.finish := by
  cases isLast : ((pieces events).filterMap Piece.finish).getLast? with
  | none =>
    cases given : message.finish with
    | none => rfl
    | some reason =>
      obtain ⟨piece, among, finish⟩ := (fragments.finish reason).mp given
      have nothing := List.getLast?_eq_none_iff.mp isLast
      exact absurd (List.mem_filterMap.mpr ⟨piece, among, finish⟩)
        (by rw [nothing]; exact List.not_mem_nil)
  | some reason =>
    obtain ⟨piece, among, finish⟩ := List.mem_filterMap.mp (List.mem_of_getLast? isLast)
    exact ((fragments.finish reason).mpr ⟨piece, among, finish⟩).symm

theorem Fragments.builderArguments (fragments : Fragments message events)
    (describes : Describes events state) :
    builderArguments calls state model role = message.arguments calls model role := by
  rw [Collector.builderArguments, Message.arguments, describes.content, fragments.content,
    describes.reasoning,
    fragments.reasoning, describes.created, fragments.created, describes.usage, fragments.usage]
  cases message.usage <;> rfl

/-- **The completion of what was collected** is that of the message. -/
theorem Fragments.complete (fragments : Fragments message events)
    (describes : Describes events state) :
    complete calls state model role = .ok (message.completion calls model role) := by
  rw [Collector.complete, fragments.builderArguments describes, fragments.finalToolCalls describes,
    describes.terminal, fragments.terminal, Message.completion]
  by_cases none : message.calls = []
  · rw [if_pos none, if_pos none, ← override_completionData]
    rfl
  · rw [if_neg none, if_neg none, ← override_completionData]
    obtain ⟨first, rest, cut⟩ := List.exists_cons_of_ne_nil none
    rw [cut]
    rfl

end Completion

/-- A stream: the frames of a message, a last frame and whatever follows it. -/
structure IsStream (calls : CollectCalls) (limits : Limits) (message : Message)
  (stream : List Item) : Prop where
  frames : ∃ items last rest events, stream = items ++ last :: rest ∧ List.Forall₂
    (IsFrame calls) items events ∧
    IsLast last ∧ Fragments message events ∧ WithinLimits limits message (items ++ [last]) events

/-- What a completion says of a message. -/
structure Tells (calls : CollectCalls) (message : Message) (completion : PyData) : Prop where
  toolCalls : message.calls ≠ [] → completion.follow ["choices", 0, "message", "tool_calls"] =
    some (.list (message.calls.map MessageCall.data))
  noToolCalls : message.calls = [] → completion.follow ["choices", 0, "message", "tool_calls"] = none
  content : message.calls = [] → completion.follow ["choices", 0, "message", "content"] =
    some (textOrNone message.content)
  reasoning : message.calls = [] → completion.follow ["choices", 0, "message", "reasoning_content"] =
    if message.reasoning = [] then none else some (.str message.reasoning)
  finishReason : completion.follow ["choices", 0, "finish_reason"] =
    some (.str (finishReasonOf (if message.calls = [] then "stop" else "tool_calls") message.finish))
  usage : completion.follow ["usage"] =
    let counts := withTotal (message.usage.getD {})
    some (if counts.totalTokens = 0 then .none else calls.buildOpenaiUsage counts)
  created : completion.follow ["created"] = some (.int (message.created.getD calls.now))

section Collected

variable {calls : CollectCalls} {limits : Limits} {message : Message} {model role : PyData}

theorem Message.tells (calls : CollectCalls) (message : Message) (model role : PyData) :
    Tells calls message (message.completion calls model role) := by
  have usage (counts : UsageCounts) (arguments : BuilderArguments)
      (same : arguments.counts = counts) :
      usageOf calls.toBuilderCalls arguments =
        if counts.totalTokens = 0 then .none else calls.buildOpenaiUsage counts := by
    rw [usageOf, same, ite_not]
  have isUsage := usage (withTotal (message.usage.getD {})) (message.arguments calls model role) rfl
  rw [Message.completion]
  by_cases none : message.calls = []
  · rw [if_pos none]
    refine ⟨fun some => absurd none some, fun _ => ?_, fun _ => rfl, fun _ =>
      ?_, ?_, congrArg some isUsage, rfl⟩
    · rw [messageOf]
      cases (message.arguments calls model role).reasoningContent.truthy <;> rfl
    · cases isReasoning : message.reasoning with
      | nil =>
        rw [messageOf, Message.arguments, isReasoning]
        rfl
      | cons first rest =>
        rw [messageOf, Message.arguments, isReasoning]
        rfl
    · rw [if_pos none]
      rfl
  · rw [if_neg none]
    refine ⟨fun _ => rfl, fun some => absurd some none, fun some => absurd some none, fun some =>
      absurd some none, ?_,
      congrArg some isUsage, rfl⟩
    rw [if_neg none]
    rfl

theorem flatMap_texts (events : List Event) : events.flatMap Event.texts =
    (pieces events).flatMap Piece.texts := by
  induction events with
  | nil => rfl
  | cons event rest ih =>
    rw [List.flatMap_cons, ih]
    cases event <;> rfl

theorem Fragments.takes {events : List Event} (fragments : Fragments message events) {event : Event}
    (among : event ∈ events) : event.Takes (message.calls.map fun call =>
      (call.index : ℤ)) message.finish := by
  cases event with
  | comment => trivial
  | usage created counts => trivial
  | piece created chunk =>
    have isPiece : chunk ∈ pieces events := List.mem_filterMap.mpr ⟨_, among, rfl⟩
    refine ⟨fun call isCall => ?_, fun text finish => (fragments.finish text).mpr
      ⟨chunk, isPiece, finish⟩⟩
    obtain ⟨whole, isWhole, same⟩ := fragments.known call
      (List.mem_flatMap.mpr ⟨chunk, isPiece, isCall⟩)
    exact List.mem_map.mpr ⟨whole, isWhole, by rw [same]⟩

theorem WithinLimits.going {items : List Item} {events : List Event}
    (within : WithinLimits limits message items events) :
    Going limits (message.calls.map fun call => (call.index : ℤ)) message.finish
      (events.flatMap Event.texts) {} := by
  rw [flatMap_texts]
  refine ⟨⟨fun text among => ?_, ?_, ?_⟩, ⟨fun index known => ?_, ?_⟩, ⟨.inl rfl⟩⟩
  · obtain ⟨chunk, isPiece, isText⟩ := List.mem_flatMap.mp among
    exact within.unicode.2 chunk isPiece text isText
  · rw [Nat.zero_add]
    exact within.texts
  · rw [Nat.zero_add]
    exact within.fragments
  · cases known
  · rw [List.length_map]
    exact within.toolCalls

/-- **A stream is collected** to the completion of its message. -/
theorem collect_stream {stream : List Item} (isStream : IsStream calls limits message stream) :
    collect calls limits stream model role = .ok (message.completion calls model role) := by
  obtain ⟨items, last, rest, events, rfl, areFrames, ⟨raw, isRaw, tells⟩, fragments, within⟩ :=
    isStream.frames
  have fits (item : Item) (among : item ∈ items ++ [last]) : Fits limits item :=
    ⟨fun text isText => within.unicode.1 text (isText ▸ among), within.frames item among⟩
  have input := within.input
  rw [List.map_append, List.sum_append] at input
  obtain ⟨reached, describes, inputReached, onwards⟩ := collectItems_frames areFrames
    (fun item among => fits item (List.mem_append_left _ among)) (le_trans (by simp) input)
    (fun event among => fragments.takes among) within.going describes_nil
  have ends := @collectItems_step calls _ last raw reached rest (fits last (by simp)) isRaw (by
    rw [inputReached]
    simpa using input)
  rw [tells] at ends
  obtain ⟨bytes, inputs, count, toolCalls⟩ := within.positive
  have positive : ¬ (limits.maxBytes = 0 ∨ limits.maxInputBytes = 0 ∨ limits.maxFragments = 0 ∨
      limits.maxToolCalls = 0) := by tauto
  rw [collect, if_neg positive, onwards, ends]
  exact fragments.complete
    ⟨describes.content, describes.reasoning, describes.calls, describes.created, describes.usage,
      describes.terminal⟩

/-- **The message is rebuilt**: what a stream of it is collected to tells the message, and does not
depend on how the message was cut. -/
theorem collected_message (calls : CollectCalls) (limits : Limits) (message : Message)
    (model role : PyData) :
    ∃ completion, Tells calls message completion ∧ ∀ stream, IsStream calls limits message stream →
      collect calls limits stream model role = .ok completion :=
  ⟨message.completion calls model role, message.tells calls model role, fun _ isStream =>
    collect_stream isStream⟩

end Collected

/-! ### Two streams -/

section Example

/-- A text of at most so many letters. -/
def Short (count : ℕ) (text : PyText) : Prop :=
    ∃ letters : List Char, letters.length ≤ count ∧ text = letters.map Char.toNat

theorem Short.append {first second : PyText} {m n : ℕ} (shortFirst : Short m first)
    (shortSecond : Short n second) :
    Short (m + n) (first ++ second) := by
  obtain ⟨left, fewLeft, rfl⟩ := shortFirst
  obtain ⟨right, fewRight, rfl⟩ := shortSecond
  exact ⟨left ++ right, by rw [List.length_append]; omega, List.map_append.symm⟩

theorem short_points {text : String} {count : ℕ} (few : text.toList.length ≤ count) : Short count
    (Utf8.points text) :=
  ⟨text.toList, few, rfl⟩

theorem Short.isSome {text : PyText} {count : ℕ} (short : Short count text) :
    (Utf8.encodePoints text).isSome := by
  obtain ⟨letters, -, rfl⟩ := short
  rw [Utf8.encodePoints_toNat]
  rfl

theorem Short.bytes {text : PyText} {count : ℕ} (short : Short count text) :
    textBytes text ≤ 4 * count := by
  obtain ⟨letters, few, rfl⟩ := short
  have bound (letters : List Char) : (Utf8.encode letters).length ≤ 4 * letters.length := by
    induction letters with
    | nil => exact Nat.zero_le _
    | cons letter rest ih =>
      have one : (String.utf8EncodeChar letter).length = letter.utf8Size :=
          String.length_utf8EncodeChar letter
      have size := letter.utf8Size_le_four
      rw [Utf8.encode_cons, List.length_append, List.length_cons]
      omega
  rw [textBytes, Utf8.encodePoints_toNat]
  exact (bound letters).trans (by omega)

/-- The text of an object. -/
def objectText (inner : PyText) : PyText :=
    Utf8.points "\x7b" ++ inner ++ Utf8.points "\x7d"

/-- A frame with an object. -/
def frameOf (inner : PyText) : Item :=
  .text (Utf8.points "data:" ++ Utf8.points " " ++ objectText inner ++ Utf8.points "\n\n")

/-- The last frame. -/
def doneFrame : Item := .text (Utf8.points "data:" ++ Utf8.points " " ++ Utf8.points "[DONE]"
    ++ Utf8.points "\n\n")

theorem saysOf_frame (inner : PyText) :
    saysOf (Utf8.points "data:" ++ Utf8.points " " ++ objectText inner ++ Utf8.points "\n\n") =
      .data (objectText inner) := by
  have first : (objectText inner).head? = some 123 := rfl
  have last : (objectText inner).getLast? = some 125 := List.getLast?_concat
  have isData : objectText inner ≠ Utf8.points "[DONE]" := fun same => by
    rw [same] at first
    exact absurd first (by decide)
  rw [saysOf_data (by decide) (by decide) ⟨123, first, by decide⟩ ⟨125, last, by decide⟩,
    if_neg isData]

theorem isLast_doneFrame : IsLast doneFrame :=
  ⟨_, rfl, (saysOf_data (by decide) (by decide) ⟨91, rfl, by decide⟩ ⟨93, rfl, by decide⟩).trans
    (if_pos rfl)⟩

/-- A frame of at most two hundred letters. -/
def ShortFrame (item : Item) : Prop := ∃ text, item = .text text ∧ Short 200 text

theorem shortFrame_frameOf {inner : PyText} (isShort : Short 190 inner) : ShortFrame
    (frameOf inner) := by
  have short := (((@short_points "data:" 5 (by decide)).append
      (@short_points " " 1 (by decide))).append
    (((@short_points "\x7b" 1 (by decide)).append isShort).append
      (@short_points "\x7d" 1 (by decide)))).append (@short_points "\n\n" 2 (by decide))
  exact ⟨_, rfl, short⟩

theorem shortFrame_points {text : String} (few : text.toList.length ≤ 200) : ShortFrame
    (.text (Utf8.points text)) :=
  ⟨_, rfl, short_points few⟩

theorem shortFrame_doneFrame : ShortFrame doneFrame :=
    @shortFrame_points "data: [DONE]\n\n" (by decide)

/-- Calls that parse these texts. -/
noncomputable def plainCalls (known : List (PyText × PyData)) : CollectCalls where
  buildOpenaiUsage := usageByName
  randomStr _ _ := Utf8.points "a"
  json := .standard
  parseOwnedJsonValue text := (known.lookup text).elim (.error .notJson) .ok
  intOfText _ := none
  nonFinite := .overflow
  now := 0

theorem parsed_known {known : List (PyText × PyData)} {text : PyText} {payload : PyData}
    (found : known.lookup text = some payload) : (plainCalls known).parseOwnedJsonValue text
      = .ok payload := by
  show (known.lookup text).elim _ _ = _
  rw [found]
  rfl

/-- Frames that are known, and their chunks, are within the limits. -/
theorem withinLimits_short {message : Message} {items : List Item} {events : List Event}
    {words : List String} (short : ∀ item ∈ items, ShortFrame item)
    (areWords : (pieces events).flatMap Piece.texts = words.map Utf8.points)
    (shortWords : ∀ word ∈ words, word.toList.length ≤ 10)
    (few : items.length ≤ 10 ∧ ((pieces events).flatMap Piece.texts).length ≤ 10
      ∧ message.calls.length ≤ 10) :
    WithinLimits {} message items events := by
  have sum {α : Type} (list : List α) (size : α → ℕ) (bound : ℕ)
      (small : ∀ one ∈ list, size one ≤ bound) :
      (list.map size).sum ≤ list.length * bound :=
    (List.sum_le_card_nsmul _ bound (by simpa using small)).trans (by simp)
  have texts (text : PyText) (among : text ∈ (pieces events).flatMap Piece.texts) :
      Short 10 text := by
    rw [areWords] at among
    obtain ⟨word, isWord, rfl⟩ := List.mem_map.mp among
    exact short_points (shortWords word isWord)
  have bytes (item : Item) (among : item ∈ items) : item.bytes? ≤ 800 := by
    obtain ⟨text, rfl, isShort⟩ := short item among
    exact isShort.bytes
  have input := sum items Item.bytes? 800 bytes
  have retained := sum ((pieces events).flatMap Piece.texts) textBytes 40 fun text among =>
      (texts text among).bytes
  refine ⟨by decide, ⟨fun text among => ?_, fun piece isPiece text among => ?_⟩, fun item among =>
    ?_, ?_, ?_, ?_, ?_⟩
  · obtain ⟨_, same, isShort⟩ := short _ among
    cases same
    exact isShort.isSome
  · exact (texts text (List.mem_flatMap.mpr ⟨piece, isPiece, among⟩)).isSome
  · exact (bytes item among).trans (by decide)
  · exact input.trans ((Nat.mul_le_mul_right _ few.1).trans (by decide))
  · exact retained.trans ((Nat.mul_le_mul_right _ few.2.1).trans (by decide))
  · exact few.2.1.trans (by decide)
  · exact few.2.2.trans (by decide)

/-- Texts of different lengths are told apart. -/
theorem lookup_eq_some {known : List (PyText × PyData)} {text : PyText} {payload : PyData}
    (distinct : (known.map fun entry => entry.1.length).Nodup) (there : (text, payload) ∈ known) :
    known.lookup text = some payload := by
  induction known with
  | nil => cases there
  | cons entry rest ih =>
    rw [List.map_cons, List.nodup_cons] at distinct
    rw [List.lookup_cons]
    rcases List.mem_cons.mp there with rfl | later
    · rw [beq_self_eq_true]
    · have other : text ≠ entry.1 := fun same =>
        distinct.1 (List.mem_map.mpr ⟨_, later, congrArg List.length same⟩)
      rw [beq_false_of_ne other]
      exact ih distinct.2 later

/-- A message with a reasoning, a text and a tool call, and its usage. -/
def fullMessage : Message where
  content := Utf8.points "ab"
  reasoning := Utf8.points "r"
  calls := [⟨0, Utf8.points "c", Utf8.points "f", Utf8.points "xy"⟩]
  finish := some (Utf8.points "tool_calls")
  usage := some { promptTokens := 3, completionTokens := 4, totalTokens := 7 }
  created := none
  ordered := List.pairwise_singleton _ _

/-- A chunk with this delta, and a finish reason. -/
def deltaPayload (delta finish : List (String × PyData)) : PyData :=
  .dict [("choices", .list [.dict (("delta", .dict delta) :: finish)])]

/-- A delta of the tool call. -/
def callDelta (head function : List (String × PyData)) : String × PyData :=
  ("tool_calls", .list [.dict (("index", .int 0) :: head ++ [("function", .dict function)])])

def wholeInner : PyText :=
  Utf8.points "\"choices\":[\x7b\"delta\":\x7b\"reasoning_content\":\"r\",\"content\":\"ab\"," ++
    Utf8.points "\"tool_calls\":[\x7b\"index\":0,\"id\":\"c\",\"function\":\x7b\"name\":\"f\"," ++
    Utf8.points "\"arguments\":\"xy\"\x7d\x7d]\x7d,\"finish_reason\":\"tool_calls\"\x7d]"

def wholePayload : PyData :=
  deltaPayload [("reasoning_content", lit "r"), ("content", lit "ab"),
    callDelta [("id", lit "c")] [("name", lit "f"), ("arguments", lit "xy")]]
    [("finish_reason", lit "tool_calls")]

def firstInner : PyText :=
  Utf8.points "\"choices\":[\x7b\"delta\":\x7b\"reasoning_content\":\"r\",\"content\":\"a\"\x7d\x7d]"

def firstPayload : PyData := deltaPayload [("reasoning_content", lit "r"), ("content", lit "a")] []

def secondInner : PyText :=
  Utf8.points "\"choices\":[\x7b\"delta\":\x7b\"content\":\"b\",\"tool_calls\":[\x7b\"index\":0," ++
    Utf8.points "\"id\":\"c\",\"function\":\x7b\"name\":\"f\",\"arguments\":\"x\"\x7d\x7d]\x7d\x7d]"

def secondPayload : PyData :=
  deltaPayload [("content", lit "b"),
    callDelta [("id", lit "c")] [("name", lit "f"), ("arguments", lit "x")]] []

def thirdInner : PyText :=
  Utf8.points "\"choices\":[\x7b\"delta\":\x7b\"tool_calls\":[\x7b\"index\":0,\"function\":\x7b" ++
    Utf8.points "\"arguments\":\"y\"\x7d\x7d]\x7d,\"finish_reason\":\"tool_calls\"\x7d]"

def thirdPayload : PyData :=
  deltaPayload [callDelta [] [("arguments", lit "y")]] [("finish_reason", lit "tool_calls")]

def usageInner : PyText := Utf8.points
  "\"choices\":[],\"usage\":\x7b\"prompt_tokens\":3,\"completion_tokens\":4,\"total_tokens\":7\x7d"

def usagePayload : PyData :=
  .dict [("choices", .list []), ("usage", .dict [("prompt_tokens", .int 3),
    ("completion_tokens", .int 4), ("total_tokens", .int 7)])]

/-- What the texts are parsed to. -/
def textsKnown : List (PyText × PyData) :=
  [(objectText wholeInner, wholePayload), (objectText firstInner, firstPayload),
    (objectText secondInner, secondPayload), (objectText thirdInner, thirdPayload),
    (objectText usageInner, usagePayload)]

theorem length_points (letters : List Char) :
    (Utf8.points (String.ofList letters)).length = letters.length := by
  rw [Utf8.points_ofList, List.length_map]

theorem length_append_of {first second : PyText} {m n : ℕ} (left : first.length = m)
    (right : second.length = n) : (first ++ second).length = m + n := by
  rw [List.length_append, left, right]

theorem length_wholeInner : wholeInner.length = 60 + 57 + 51 :=
  length_append_of (length_append_of (length_points _) (length_points _)) (length_points _)

theorem length_firstInner : firstInner.length = 61 :=
  length_points _

theorem length_secondInner : secondInner.length = 60 + 53 :=
  length_append_of (length_points _) (length_points _)

theorem length_thirdInner : thirdInner.length = 58 + 50 :=
  length_append_of (length_points _) (length_points _)

theorem length_usageInner : usageInner.length = 79 :=
  length_points _

theorem length_objectText (inner : PyText) : (objectText inner).length = 1 + inner.length + 1 :=
  length_append_of (length_append_of (length_points _) rfl) (length_points _)

/-- The texts differ in their lengths. -/
theorem textsKnown_distinct : (textsKnown.map fun entry => entry.1.length).Nodup := by
  simp only [textsKnown, List.map_cons, List.map_nil, length_objectText, length_wholeInner,
    length_firstInner, length_secondInner, length_thirdInner, length_usageInner]
  decide

theorem isFrame_known {inner : PyText} {payload : PyData} {piece : Piece}
    (known : (objectText inner, payload) ∈ textsKnown) (isPiece : IsPiece payload none piece) :
    IsFrame (plainCalls textsKnown) (frameOf inner) (.piece none piece) :=
  .piece rfl (saysOf_frame inner) (parsed_known (lookup_eq_some textsKnown_distinct known)) isPiece

theorem isFrame_usage : IsFrame (plainCalls textsKnown) (frameOf usageInner)
    (.usage none { promptTokens := 3, completionTokens := 4, totalTokens := 7 }) := by
  have known : (objectText usageInner, usagePayload) ∈ textsKnown := by simp [textsKnown]
  refine .usage rfl (saysOf_frame usageInner)
    (parsed_known (lookup_eq_some textsKnown_distinct known)) ⟨_, _, rfl, rfl, rfl, rfl, ?_⟩
  refine ⟨.found rfl, .found rfl, .found rfl, ?_, ?_⟩
  · simp only [List.forall_mem_cons, List.not_mem_nil, false_imp_iff, implies_true, and_true]
    exact ⟨.later rfl (.later rfl .absent), .later rfl (.later rfl .absent)⟩
  · simp only [List.forall_mem_cons, List.not_mem_nil, false_imp_iff, implies_true, and_true]
    exact ⟨.later rfl (.later rfl .absent), .later rfl (.later rfl .absent),
      .later rfl (.later rfl .absent), .later rfl (.later rfl .absent)⟩

theorem short_letters {letters : List Char} {count : ℕ} (few : letters.length ≤ count) :
    Short count (Utf8.points (String.ofList letters)) :=
  ⟨letters, few, Utf8.points_ofList letters⟩

theorem shortFrame_wholeInner : ShortFrame (frameOf wholeInner) :=
  shortFrame_frameOf (((@short_letters _ 70 (by decide)).append (@short_letters _ 60 (by decide))).append
    (@short_letters _ 60 (by decide)))

theorem shortFrame_firstInner : ShortFrame (frameOf firstInner) :=
  shortFrame_frameOf (@short_letters _ 190 (by decide))

theorem shortFrame_secondInner : ShortFrame (frameOf secondInner) :=
  shortFrame_frameOf ((@short_letters _ 100 (by decide)).append (@short_letters _ 90 (by decide)))

theorem shortFrame_thirdInner : ShortFrame (frameOf thirdInner) :=
  shortFrame_frameOf ((@short_letters _ 100 (by decide)).append (@short_letters _ 90 (by decide)))

theorem shortFrame_usageInner : ShortFrame (frameOf usageInner) :=
  shortFrame_frameOf (@short_letters _ 190 (by decide))

/-- The chunk that gives all. -/
def wholePiece : Piece :=
  ⟨some (Utf8.points "ab"), some (Utf8.points "r"), some (Utf8.points "tool_calls"),
    [⟨0, some (Utf8.points "c"), some (Utf8.points "f"), some (Utf8.points "xy")⟩]⟩

theorem isStream_whole : IsStream (plainCalls textsKnown) {} fullMessage
    [frameOf wholeInner, frameOf usageInner, doneFrame] := by
  have whole : IsFrame (plainCalls textsKnown) (frameOf wholeInner) (.piece none wholePiece) :=
    isFrame_known List.mem_cons_self ⟨_, _, _, rfl, rfl, rfl, rfl, rfl, rfl, rfl,
      .inr ⟨_, rfl, .cons ⟨_, rfl, rfl, rfl, .inr ⟨_, rfl, rfl, rfl⟩⟩ .nil⟩⟩
  refine ⟨[_, _], _, [], [_, _], rfl, .cons whole (.cons isFrame_usage .nil), isLast_doneFrame, ?_,
    @withinLimits_short _ _ _ ["tool_calls", "ab", "r", "c", "f", "xy"] ?_ rfl (by decide)
      (by decide)⟩
  · refine ⟨rfl, rfl, ?_, ?_, fun reason => ?_, rfl, rfl⟩
    · exact List.forall_mem_singleton.mpr ⟨_, List.mem_singleton_self _, rfl⟩
    · exact List.forall_mem_singleton.mpr ⟨rfl, rfl, rfl⟩
    · simp [fullMessage, pieces, wholePiece]
  · simp only [List.cons_append, List.nil_append, List.forall_mem_cons]
    exact ⟨shortFrame_wholeInner, shortFrame_usageInner, shortFrame_doneFrame, List.forall_mem_nil _⟩

/-- The chunks of the cut. -/
def firstPiece : Piece := ⟨some (Utf8.points "a"), some (Utf8.points "r"), none, []⟩

def secondPiece : Piece :=
  ⟨some (Utf8.points "b"), none, none,
    [⟨0, some (Utf8.points "c"), some (Utf8.points "f"), some (Utf8.points "x")⟩]⟩

def thirdPiece : Piece :=
  ⟨none, none, some (Utf8.points "tool_calls"), [⟨0, none, none, some (Utf8.points "y")⟩]⟩

theorem isStream_cut : IsStream (plainCalls textsKnown) {} fullMessage
    [frameOf firstInner, .text (Utf8.points ": ping\n\n"), frameOf secondInner, frameOf thirdInner,
      frameOf usageInner, doneFrame] := by
  have first : IsFrame (plainCalls textsKnown) (frameOf firstInner) (.piece none firstPiece) :=
    @isFrame_known _ firstPayload _ (by simp [textsKnown]) ⟨_, _, _, rfl, rfl, rfl, rfl, rfl, rfl, rfl,
      .inl ⟨rfl, rfl⟩⟩
  have second : IsFrame (plainCalls textsKnown) (frameOf secondInner) (.piece none secondPiece) :=
    @isFrame_known _ secondPayload _ (by simp [textsKnown]) ⟨_, _, _, rfl, rfl, rfl, rfl, rfl, rfl,
      rfl, .inr ⟨_, rfl, .cons ⟨_, rfl, rfl, rfl, .inr ⟨_, rfl, rfl, rfl⟩⟩ .nil⟩⟩
  have third : IsFrame (plainCalls textsKnown) (frameOf thirdInner) (.piece none thirdPiece) :=
    @isFrame_known _ thirdPayload _ (by simp [textsKnown]) ⟨_, _, _, rfl, rfl, rfl, rfl, rfl, rfl,
      rfl, .inr ⟨_, rfl, .cons ⟨_, rfl, rfl, rfl, .inr ⟨_, rfl, rfl, rfl⟩⟩ .nil⟩⟩
  refine ⟨[_, _, _, _, _], _, [], [_, _, _, _, _], rfl, .cons first (.cons (.comment rfl
    (saysOf_comment _)) (.cons second (.cons third (.cons isFrame_usage .nil)))), isLast_doneFrame,
    ?_, @withinLimits_short _ _ _ ["a", "r", "b", "c", "f", "x", "tool_calls", "y"] ?_ rfl
      (by decide) (by decide)⟩
  · refine ⟨rfl, rfl, ?_, ?_, fun reason => ?_, rfl, rfl⟩
    · exact List.forall_mem_cons.mpr ⟨⟨_, List.mem_singleton_self _, rfl⟩,
        List.forall_mem_singleton.mpr ⟨_, List.mem_singleton_self _, rfl⟩⟩
    · exact List.forall_mem_singleton.mpr ⟨rfl, rfl, rfl⟩
    · simp [fullMessage, pieces, firstPiece, secondPiece, thirdPiece]
  · simp only [List.cons_append, List.nil_append, List.forall_mem_cons]
    exact ⟨shortFrame_firstInner, shortFrame_points (by decide), shortFrame_secondInner,
      shortFrame_thirdInner, shortFrame_usageInner, shortFrame_doneFrame, List.forall_mem_nil _⟩

/-- The two are collected to one completion. -/
theorem collected_message_cut : ∃ completion : PyData,
    completion.follow ["choices", 0, "message", "tool_calls"] =
      some (.list (fullMessage.calls.map MessageCall.data)) ∧
    completion.follow ["choices", 0, "finish_reason"] = some (lit "tool_calls") ∧
    collect (plainCalls textsKnown) {} [frameOf wholeInner, frameOf usageInner, doneFrame]
      (lit "m") (lit "assistant") = .ok completion ∧
    collect (plainCalls textsKnown) {} [frameOf firstInner, .text (Utf8.points ": ping\n\n"),
      frameOf secondInner, frameOf thirdInner, frameOf usageInner, doneFrame] (lit "m")
        (lit "assistant") = .ok completion := by
  obtain ⟨completion, tells, collected⟩ :=
    collected_message (plainCalls textsKnown) {} fullMessage (lit "m") (lit "assistant")
  exact ⟨completion, tells.toolCalls (List.cons_ne_nil _ _), tells.finishReason,
    collected _ isStream_whole, collected _ isStream_cut⟩

/-- A message with a tool call, whose stream says `stop`. -/
def callMessage : Message where
  content := []
  reasoning := []
  calls := [⟨3, Utf8.points "c", Utf8.points "f", Utf8.points "ab"⟩]
  finish := some (Utf8.points "stop")
  usage := none
  created := none
  ordered := List.pairwise_singleton _ _

def callInner : PyText :=
  Utf8.points "\"choices\":[\x7b\"delta\":\x7b\"tool_calls\":[\x7b\"index\":3,\"id\":\"c\"," ++
    Utf8.points "\"function\":\x7b\"name\":\"f\",\"arguments\":\"ab\"\x7d\x7d]\x7d," ++
    Utf8.points "\"finish_reason\":\"stop\"\x7d]"

def callPayload : PyData :=
  .dict [("choices", .list [.dict [("delta", .dict
    [("tool_calls", .list [.dict [("index", .int 3), ("id", lit "c"),
    ("function", .dict [("name", lit "f"), ("arguments", lit "ab")])]])]),
      ("finish_reason", lit "stop")]])]

/-- Calls that parse the text of the tool call. -/
noncomputable def callCalls : CollectCalls := plainCalls [(objectText callInner, callPayload)]

theorem isStream_call : IsStream callCalls {} callMessage [frameOf callInner, doneFrame] := by
  have found : [(objectText callInner, callPayload)].lookup (objectText callInner)
      = some callPayload := by
    rw [List.lookup_cons, beq_self_eq_true]
  have isCall : IsCallPiece (.dict [("index", .int 3), ("id", lit "c"),
      ("function", .dict [("name", lit "f"), ("arguments", lit "ab")])])
      ⟨3, some (Utf8.points "c"), some (Utf8.points "f"), some (Utf8.points "ab")⟩ :=
    ⟨_, rfl, rfl, rfl, .inr ⟨_, rfl, rfl, rfl⟩⟩
  refine ⟨[_], _, [], [.piece none ⟨none, none, some (Utf8.points "stop"), [_]⟩], rfl,
    .cons (.piece rfl (saysOf_frame callInner) (parsed_known found)
      ⟨_, _, _, rfl, rfl, rfl, rfl, rfl, rfl, rfl, .inr ⟨_, rfl, .cons isCall .nil⟩⟩) .nil,
        isLast_doneFrame, ?_,
    @withinLimits_short _ _ _ ["stop", "c", "f", "ab"] ?_ rfl (by decide) (by decide)⟩
  · refine ⟨rfl, rfl, ?_, ?_, fun reason => ?_, rfl, rfl⟩
    · exact fun call among => ⟨_, List.mem_singleton_self _, (by simp_all [callPieces, pieces])⟩
    · exact List.forall_mem_singleton.mpr ⟨rfl, rfl, rfl⟩
    · simp [callMessage, pieces]
  · exact List.forall_mem_cons.mpr ⟨shortFrame_frameOf
      (((@short_points _ 80 (by simp)).append (@short_points _ 80 (by simp))).append
        (@short_points _ 30 (by simp))),
      List.forall_mem_singleton.mpr shortFrame_doneFrame⟩

/-- The stream of the message says `stop`, and its completion says `tool_calls`. -/
theorem stop_replaced : IsStream callCalls {} callMessage [frameOf callInner, doneFrame] ∧
    callMessage.finish = some (Utf8.points "stop") ∧ ∃ completion,
      collect callCalls {} [frameOf callInner, doneFrame] (lit "m") (lit "assistant")
        = .ok completion ∧
      completion.follow ["choices", 0, "finish_reason"] = some (lit "tool_calls") :=
  ⟨isStream_call, rfl, _, collect_stream isStream_call, (callMessage.tells _ _ _).finishReason⟩

end Example

end UniApi.Streaming.Collector
