/-
**What the OpenAI-compatible pass-through keeps for a client.**

A client acts on the tool call deltas and on the finish reasons of chunks. The branches for thinking texts
and for reasonings send nothing of them.

* `transformEvent_passes`, `transformEvent_takes`: a chunk that is sent on, and one that is not;
* `transformEvents_sends`: what is sent of a run of chunks;
* `relay_keeps_iff`: when a client has all that it acts on.
-/

import UniApi.Providers.OpenaiStream

namespace UniApi.Providers.OpenaiStream

open UniApi.Lib UniApi.Streaming
open UniApi.Lib.PyData (lit)

/-! ### What a client acts on -/

/-- What a client acts on. -/
inductive Action where
  | toolCall (delta : PyData)
  | finish (reason : PyData)

/-- The tool call deltas of a chunk. -/
def toolDeltasOf (chunk : PyData) : List PyData :=
    Client.itemsAt chunk ["choices", 0, "delta", "tool_calls"]

/-- The finish reason of a chunk, unless it is null. -/
def finishReason (chunk : PyData) : Option PyData :=
  (chunk.follow ["choices", 0, "finish_reason"]).filter isGiven

/-- The tool call deltas of a chunk, and its finish reason. -/
def actions (chunk : PyData) : List Action :=
  (toolDeltasOf chunk).map .toolCall ++ (finishReason chunk).toList.map .finish

/-- The chunks among what was sent. -/
def relayedChunks (sent : List Relayed) : List PyData := sent.filterMap fun
  | .chunk payload => some payload
  | _ => none

theorem relayedChunks_append (first second : List Relayed) :
    relayedChunks (first ++ second) = relayedChunks first ++ relayedChunks second := List.filterMap_append

/-! ### Calls that send nothing that a client acts on -/

/-- The stream stays open, and nothing was sent that a client acts on. -/
structure Quiet (state after : RelayState) : Prop where
  stays : after.completedNormally = state.completedNormally
  sends : ∃ items, after.sent = state.sent ++ items ∧ (relayedChunks items).flatMap actions = []

theorem Quiet.of_flags {state after : RelayState}
    (stays : after.completedNormally = state.completedNormally)
    (same : after.sent = state.sent) : Quiet state after where
  stays := stays
  sends := ⟨[], by rw [same, List.append_nil], rfl⟩

theorem Quiet.refl (state : RelayState) : Quiet state state := .of_flags rfl rfl

theorem Quiet.trans {state between after : RelayState} (first : Quiet state between)
    (second : Quiet between after) : Quiet state after where
  stays := second.stays.trans first.stays
  sends := by
    obtain ⟨items, sent, silent⟩ := first.sends
    obtain ⟨items', sent', silent'⟩ := second.sends
    refine ⟨items ++ items', by rw [sent', sent, List.append_assoc], ?_⟩
    rw [relayedChunks_append, List.flatMap_append, silent, silent']
    rfl

/-- **From this state the call returns this, and it is quiet.** -/
def Quietly {α : Type} (state : RelayState) (call : Relaying α) (value : α) : Prop :=
  ∃ after, call state = (.ok value, after) ∧ Quiet state after

namespace Quietly

variable {α β : Type} {state : RelayState}

theorem pure (value : α) : Quietly state (Pure.pure value) value := ⟨state, rfl, .refl state⟩

theorem bind {call : Relaying α} {next : α → Relaying β} {value : α} {result : β}
    (first : Quietly state call value) (second : ∀ after, Quietly after (next value) result) :
    Quietly state (call >>= next) result := by
  obtain ⟨between, runs, quiet⟩ := first
  obtain ⟨after, runs', quiet'⟩ := second between
  refine ⟨after, ?_, quiet.trans quiet'⟩
  rw [Raise.bind_apply, runs]
  exact runs'

theorem bind_get {next : RelayState → Relaying α} {value : α} (later : Quietly state (next state) value) :
    Quietly state (Raise.get >>= next) value := later

theorem modify {change : RelayState → RelayState}
    (stays : (change state).completedNormally = state.completedNormally)
    (same : (change state).sent = state.sent) : Quietly state (Raise.modify change) () :=
  ⟨change state, rfl, .of_flags stays same⟩

theorem step {call : Relaying α} {next : α → Relaying β} {value : α} {result : β} {between : RelayState}
    (runs : call state = (.ok value, between)) (quiet : Quiet state between)
    (later : Quietly between (next value) result) : Quietly state (call >>= next) result := by
  obtain ⟨after, runs', quiet'⟩ := later
  refine ⟨after, ?_, quiet.trans quiet'⟩
  rw [Raise.bind_apply, runs]
  exact runs'

/-- A call after a change of the flags. -/
theorem after_modify {change : RelayState → RelayState} {next : Unit → Relaying α} {value : α}
    (stays : (change state).completedNormally = state.completedNormally)
    (same : (change state).sent = state.sent) (later : Quietly (change state) (next ()) value) :
    Quietly state (Raise.modify change >>= next) value := by
  obtain ⟨after, runs, quiet⟩ := later
  exact ⟨after, runs, (Quiet.of_flags stays same).trans quiet⟩

theorem chunk {payload : PyData} (silent : actions payload = []) :
    Quietly state (relay (.chunk payload)) () := by
  refine ⟨_, rfl, rfl, [.chunk payload], rfl, ?_⟩
  show actions payload ++ [] = []
  rw [silent, List.append_nil]

end Quietly

section Quiet

variable {calls : RelayCalls} {state : RelayState}

theorem relayReasoning_quietly {words : PyText} (some_ : words ≠ []) :
    Quietly state (relayReasoning calls (.str words)) () := by
  cases words with
  | nil => exact absurd rfl some_
  | cons letter words => exact .chunk rfl

theorem relayContent_quietly {words : PyText} (some_ : words ≠ []) :
    Quietly state (relayContent calls (.str words)) () := by
  cases words with
  | nil => exact absurd rfl some_
  | cons letter words => exact .chunk rfl

theorem relayThinking_quietly (words : PyText) : Quietly state (relayThinking calls (.str words)) () := by
  cases words with
  | nil => exact .pure ()
  | cons letter words =>
    exact (relayReasoning_quietly (List.cons_ne_nil letter words)).bind fun after => .modify rfl rfl

theorem relayIf_quietly {send : PyData → Relaying Unit} {words : PyText}
    (quietly : words ≠ [] → Quietly state (send (.str words)) ()) : Quietly state
      (relayIf send words) () := by
  cases words with
  | nil => exact .pure ()
  | cons letter words => exact quietly (List.cons_ne_nil letter words)

theorem closeTag_quietly (words : PyText) : Quietly state (closeTag calls (.str words)) () :=
  .after_modify rfl rfl ((relayIf_quietly relayReasoning_quietly).bind fun _ =>
    relayIf_quietly relayContent_quietly)

theorem insideTags_quietly (words : PyText) : Quietly state (insideTags calls (.str words)) () := by
  refine .bind_get ?_
  split
  · exact relayThinking_quietly words
  · exact relayThinking_quietly _

theorem insideQuote_quietly (words : PyText) : Quietly state (insideQuote calls (.str words)) () := by
  refine Quietly.bind (.pure words) fun after => .bind_get ?_
  split
  · exact relayThinking_quietly _
  · exact relayThinking_quietly _

end Quiet

/-! ### The branches that take a chunk -/

/-- `needle in text`. -/
def has (needle : String) (text : PyText) : Bool := isSubstring (Utf8.points needle) text

theorem isIn_str (needle : String) (words : PyText) : isIn needle (.str words) = pure (has needle words) :=
  rfl

/-- The content is a text between tags, or has a tag. -/
def InTags (state : RelayState) (content : PyText) : Prop :=
  has "<think>" content = true ∨ has "</think>" content = true ∨
    state.isThinking = true ∧ state.arkTag = true

/-- The content begins a quote. -/
def opensQuote (content : PyText) : Bool := has "Thinking..." content && has "\n> " content

/-- The content behind the beginning of a quote. -/
def quoted (content : PyText) : PyText :=
  if opensQuote content then replaced "\n> " "" (replaced "Thinking..." "" content) else content

/-- The content is in a quote. -/
def InQuote (state : RelayState) (content : PyText) : Prop :=
  state.arkTag = false ∧ (state.isThinking = true ∨ opensQuote content = true) ∧
    has "\n\n" (quoted content) = false

section Branches

variable {calls : RelayCalls} {state : RelayState} {content : PyText}

/-- **A content without tags around it is left as it is.** -/
theorem thinkTags_passes (outside : ¬ InTags state content) :
    thinkTags calls (.str content) state = (.ok (some (.str content)), state) := by
  simp only [InTags, not_or, not_and, Bool.not_eq_true] at outside
  obtain ⟨noTag, noEnd, notInside⟩ := outside
  have opened : openTag (.str content) = pure (.str content) := by
    rw [openTag, isIn_str, noTag]
    rfl
  have closed : (state.isThinking && state.arkTag) = false := by
    cases thinking : state.isThinking
    · rfl
    · exact notInside thinking
  rw [thinkTags, opened, return_bind, behindTag, isIn_str, noEnd, return_bind,
    if_neg Bool.false_ne_true, get_bind,
    closed]
  rfl

theorem behindTag_takes (inside : has "</think>" content = true ∨ state.isThinking = true
    ∧ state.arkTag = true) :
    Quietly state (behindTag calls (.str content)) none := by
  rw [behindTag, isIn_str, return_bind]
  split
  · exact (closeTag_quietly content).bind fun _ => .pure none
  · rename_i noEnd
    obtain ⟨thinking, tagged⟩ := inside.resolve_left noEnd
    refine .bind_get ?_
    rw [thinking, tagged]
    exact (insideTags_quietly content).bind fun _ => .pure none

/-- **A content with tags around it is done with.** -/
theorem thinkTags_takes (inside : InTags state content) :
    Quietly state (thinkTags calls (.str content)) none := by
  cases tag : has "<think>" content with
  | true =>
    have opened : openTag (.str content) state
        = (.ok (.str (replaced "<think>" "" content)),
          { state with isThinking := true, arkTag := true }) := by
      rw [openTag, isIn_str, tag]
      rfl
    exact .step opened (.of_flags rfl rfl) (behindTag_takes (.inr ⟨rfl, rfl⟩))
  | false =>
    have opened : openTag (.str content) state = (.ok (.str content), state) := by
      rw [openTag, isIn_str, tag]
      rfl
    exact .step opened (.refl state) (behindTag_takes (inside.resolve_left (by simp [tag])))

theorem openQuote_runs (content : PyText) : openQuote (.str content) state = (.ok (.str (quoted content)),
    { state with isThinking := state.isThinking || opensQuote content }) := by
  rw [openQuote, isIn_str, isIn_str, return_bind, return_bind, quoted]
  show (if opensQuote content = true then (_ : Relaying PyData) else _) state = _
  cases opensQuote content
  · rw [if_neg Bool.false_ne_true, if_neg Bool.false_ne_true, Bool.or_false]
    rfl
  · rw [if_pos rfl, if_pos rfl, Bool.or_true]
    rfl

theorem closeQuote_runs (content : PyText) : closeQuote (.str content) state
    = (.ok (), { state with isThinking := state.isThinking && (!has "\n\n" content || state.arkTag) }) := by
  rw [closeQuote, get_bind, isIn_str, return_bind]
  obtain ⟨_ | _, _, _ | _, _, _, _, _, _, _⟩ := state <;> cases has "\n\n" content <;> rfl

/-- **A content in a quote is done with.** -/
theorem quotedThinking_takes (inside : InQuote state content) :
    Quietly state (quotedThinking calls (.str content)) true := by
  obtain ⟨noTag, thinking, noBlank⟩ := inside
  refine .step (openQuote_runs content) (.of_flags rfl rfl) ?_
  refine .step (closeQuote_runs _) (.of_flags rfl rfl) ?_
  refine .bind_get ?_
  have isInside : ((state.isThinking || opensQuote content) &&
      (!has "\n\n" (quoted content) || state.arkTag)
      && !state.arkTag) = true := by
    simpa [noTag, noBlank] using thinking
  rw [if_pos isInside]
  exact (insideQuote_quietly _).bind fun _ => .pure true

/-- **A content outside a quote is left for later**, and a quote that is over is left. -/
theorem quotedThinking_passes (outside : ¬ InQuote state content) : ∃ isThinking,
    quotedThinking calls (.str content) state = (.ok false, { state with isThinking := isThinking }) := by
  refine ⟨(state.isThinking || opensQuote content) && (!has "\n\n" (quoted content) || state.arkTag), ?_⟩
  have isOutside : ((state.isThinking || opensQuote content) &&
      (!has "\n\n" (quoted content) || state.arkTag) && !state.arkTag) = false := by
    rw [Bool.eq_false_iff]
    intro isInside
    refine outside ?_
    simp only [Bool.and_eq_true, Bool.or_eq_true, Bool.not_eq_true'] at isInside
    obtain ⟨⟨thinking, noBlank⟩, noTag⟩ := isInside
    exact ⟨noTag, thinking, noBlank.resolve_right (by simp [noTag])⟩
  rw [quotedThinking, bind_of_ok (openQuote_runs content), bind_of_ok (closeQuote_runs _), get_bind,
    if_neg (Bool.eq_false_iff.mp isOutside)]
  rfl

/-! ### The escape buffer -/

/-- The reasoning is the rest of an escape, which is kept in the buffer. -/
def ContinuesEscape (buffer reasoning : PyText) : Prop :=
  Utf8.points "\\" <:+ buffer ∧ reasoning = Utf8.points "n" ∨
    Utf8.points "\\n" <:+ buffer ∧ reasoning = Utf8.points "\\n"

/-- The buffer has no room for the reasoning. -/
def NoRoom (buffer reasoning : PyText) : Prop :=
  ∀ bytes, Utf8.encodePoints buffer = some bytes → 256 < bytes.length + reasoning.length

/-- A buffer with room keeps the escape. -/
theorem keepEscape_quietly {addition : String} {bytes : Bytes}
    (encodes : Utf8.encodePoints (Utf8.points addition) = some bytes)
    (same : bytes.length = (Utf8.points addition).length)
    (room : ¬ NoRoom state.enterBuffer (Utf8.points addition)) : Quietly state
      (keepEscape addition) () := by
  simp only [NoRoom, not_forall, not_lt] at room
  obtain ⟨buffered, isBuffered, fits⟩ := room
  refine .bind_get ?_
  rw [boundedTextConcat, isBuffered, encodes]
  dsimp only
  rw [same, if_neg (not_lt.mpr fits)]
  exact .modify rfl rfl

/-- A buffer without room raises. -/
theorem keepEscape_raises {addition : String} {bytes : Bytes}
    (encodes : Utf8.encodePoints (Utf8.points addition) = some bytes)
    (same : bytes.length = (Utf8.points addition).length)
    (full : NoRoom state.enterBuffer (Utf8.points addition)) :
    ∃ error, keepEscape addition state = (.error error, state) := by
  rw [keepEscape, get_bind, boundedTextConcat, encodes]
  cases encoded : Utf8.encodePoints state.enterBuffer with
  | none => exact ⟨_, rfl⟩
  | some buffered =>
    dsimp only
    rw [same, if_pos (full buffered encoded)]
    exact ⟨_, rfl⟩

theorem encodes_n : Utf8.encodePoints (Utf8.points "n") = some [110] := by decide

theorem encodes_escape : Utf8.encodePoints (Utf8.points "\\n") = some [92, 110] := by decide

/-- **Reasoning is sent or kept**, unless it is the rest of an escape for which there is no room. -/
theorem relayEscaped_quietly {reasoning : PyText} (nonempty : reasoning ≠ [])
    (room : ContinuesEscape state.enterBuffer reasoning → ¬ NoRoom state.enterBuffer reasoning) :
    Quietly state (relayEscaped calls reasoning) () := by
  have whole (front : PyText) : replaced "\\n" "\n" (front ++ reasoning) ≠ [] :=
    PyText.replace_ne_nil _ (by decide) (List.append_ne_nil_of_right_ne_nil _ nonempty)
  refine .bind_get ?_
  dsimp only
  split_ifs with ends rest_ rest_ ended
  · exact .after_modify rfl rfl (relayIf_quietly relayReasoning_quietly)
  · simp only [Bool.and_eq_true, beq_iff_eq, List.isSuffixOf_iff_suffix] at rest_
    obtain ⟨isOpen, rfl⟩ := rest_
    exact keepEscape_quietly encodes_n rfl (room (.inl ⟨isOpen, rfl⟩))
  · simp only [Bool.and_eq_true, beq_iff_eq, List.isSuffixOf_iff_suffix] at rest_
    obtain ⟨isOpen, rfl⟩ := rest_
    exact keepEscape_quietly encodes_escape rfl (room (.inr ⟨isOpen, rfl⟩))
  · exact .after_modify rfl rfl (relayReasoning_quietly (whole _))
  · exact .after_modify rfl rfl (relayReasoning_quietly (whole _))

theorem relayEscaped_raises {reasoning : PyText} (continues_ : ContinuesEscape state.enterBuffer reasoning)
    (full : NoRoom state.enterBuffer reasoning) :
    ∃ error, relayEscaped calls reasoning state = (.error error, state) := by
  rw [relayEscaped, get_bind]
  dsimp only
  rcases continues_ with ⟨isOpen, rfl⟩ | ⟨isOpen, rfl⟩
  · rw [if_neg (by decide), if_pos (by simpa [List.isSuffixOf_iff_suffix] using isOpen)]
    exact keepEscape_raises encodes_n rfl full
  · have notOpen : ¬ ((Utf8.points "\\").isSuffixOf state.enterBuffer
        && Utf8.points "\\n" == Utf8.points "n") = true := by
      rw [Bool.and_eq_true]
      exact fun both => absurd both.2 (by decide)
    rw [if_neg (by decide), if_neg notOpen, if_pos (by simpa [List.isSuffixOf_iff_suffix] using isOpen)]
    exact keepEscape_raises encodes_escape rfl full

end Branches

/-! ### A chunk -/

/-- The text of the content. -/
def contentOf (chunk : PyData) : PyText := Client.textAt chunk ["choices", 0, "delta", "content"]

/-- The text of the reasoning. -/
def reasoningOf (chunk : PyData) : PyText := Client.textAt chunk ["choices", 0, "delta", "reasoning"]

/-- **A chunk of a chat completion**, whose delta may have a content, a reasoning, and tool calls. -/
structure IsChunk (payload : PyData) : Prop where
  isDict : ∃ members, payload = .dict members
  noType : payload.part "type" = none
  noMessage : payload.follow ["choices", 0, "message"] = none
  noImages : payload.follow ["choices", 0, "delta", "images"] = none
  content : ∃ words, Leads payload ["choices", 0, "delta", "content"] words
  reasoning : (∃ words, Leads payload ["choices", 0, "delta", "reasoning"] words) ∨
    payload.follow ["choices", 0, "delta", "reasoning"] = some .none

/-- **The state lets the chunk pass**: its content is no part of a thinking text, and it has no reasoning. -/
def Passes (state : RelayState) (chunk : PyData) : Prop :=
  ¬ InTags state (contentOf chunk) ∧ ¬ InQuote state (contentOf chunk) ∧ reasoningOf chunk = []

/-- The reasoning of the chunk is the rest of an escape for which the buffer has no room. -/
def Overflows (state : RelayState) (chunk : PyData) : Prop :=
  ¬ InTags state (contentOf chunk) ∧ ¬ InQuote state (contentOf chunk) ∧
    ContinuesEscape state.enterBuffer (reasoningOf chunk) ∧ NoRoom state.enterBuffer (reasoningOf chunk)

theorem follow_append (data : PyData) (keys more : List PyKey) :
    data.follow (keys ++ more) = (data.follow keys).bind (·.follow more) := by
  induction keys generalizing data with
  | nil => rfl
  | cons key keys ih =>
    show (data.part key).bind _ = ((data.part key).bind _).bind _
    rw [Option.bind_assoc]
    exact congrArg _ (funext ih)

theorem textAt_of_leads {chunk : PyData} {keys : List PyKey} {words : PyText}
    (leads : Leads chunk keys words) :
    Client.textAt chunk keys = words := by
  rcases leads with found | ⟨lost, rfl⟩
  · rw [Client.textAt, found]
    rfl
  · rw [Client.textAt, lost]
    rfl

section Chunks

variable {calls : RelayCalls} {state : RelayState} {chunk : PyData}

/-- The chunk with the id of the stream. -/
def withId (calls : RelayCalls) : PyData → PyData
  | .dict members => named calls members
  | payload => payload

theorem part_withId (payload : PyData) {name : String} (notId : name ≠ "id") :
    (withId calls payload).part name = payload.part name := by
  cases payload with
  | dict members =>
    show List.lookup name (Dict.setEntries _ _ members) = List.lookup name members
    rw [Dict.lookup_setEntries, if_neg notId]
  | _ => rfl

theorem follow_withId (payload : PyData) {name : String} (notId : name ≠ "id") (keys : List PyKey) :
    (withId calls payload).follow (.name name :: keys) = payload.follow (.name name :: keys) := by
  rw [PyData.follow, PyData.follow, part_withId payload notId]

theorem actions_withId : actions (withId calls chunk) = actions chunk := by
  rw [actions, actions, toolDeltasOf, toolDeltasOf, Client.itemsAt, Client.itemsAt, finishReason,
    finishReason,
    follow_withId chunk (by decide), follow_withId chunk (by decide)]

theorem IsChunk.withId (isChunk : IsChunk chunk) : IsChunk (withId calls chunk) where
  isDict := by
    obtain ⟨members, rfl⟩ := isChunk.isDict
    exact ⟨_, rfl⟩
  noType := (part_withId chunk (by decide)).trans isChunk.noType
  noMessage := (follow_withId chunk (by decide) _).trans isChunk.noMessage
  noImages := (follow_withId chunk (by decide) _).trans isChunk.noImages
  content := by
    obtain ⟨words, leads⟩ := isChunk.content
    exact ⟨words, by rwa [Leads, follow_withId chunk (by decide)]⟩
  reasoning := by
    rw [follow_withId chunk (by decide)]
    refine isChunk.reasoning.imp_left ?_
    rintro ⟨words, leads⟩
    exact ⟨words, by rwa [Leads, follow_withId chunk (by decide)]⟩

theorem contentOf_withId : contentOf (withId calls chunk) = contentOf chunk := by
  rw [contentOf, contentOf, Client.textAt, Client.textAt, follow_withId chunk (by decide)]

theorem reasoningOf_withId : reasoningOf (withId calls chunk) = reasoningOf chunk := by
  rw [reasoningOf, reasoningOf, Client.textAt, Client.textAt, follow_withId chunk (by decide)]

theorem passes_withId (calls : RelayCalls) : Passes state (withId calls chunk) ↔ Passes state chunk := by
  rw [Passes, Passes, contentOf_withId, reasoningOf_withId]

theorem overflows_withId (calls : RelayCalls) :
    Overflows state (withId calls chunk) ↔ Overflows state chunk := by
  rw [Overflows, Overflows, contentOf_withId, reasoningOf_withId]

/-- What a chunk gives at the paths that the stream reads. -/
structure Reads (calls : RelayCalls) (line : PyData) : Prop where
  content : calls.safeGet line ["choices", 0, "delta", "content"] (lit "") = .str (contentOf line)
  responses : ∀ state, responsesEvent calls line state = (.ok false, state)
  image : ∀ state, relayImage calls line state = (.ok false, state)
  summary : ∀ state, relaySummary calls line state = (.ok false, state)
  message : (calls.safeGet line ["choices", 0, "message", "content"] .none).truthy = false
  reasoning : (calls.safeGet line ["choices", 0, "delta", "reasoning"] (lit "")).truthy = false
      ∧ reasoningOf line = [] ∨
    calls.safeGet line ["choices", 0, "delta", "reasoning"] (lit "") = .str (reasoningOf line)
      ∧ reasoningOf line ≠ []

theorem lost_follow {data : PyData} {keys : List PyKey} (lost : data.follow keys = none) (more : List PyKey)
    (default : PyData) : calls.safeGet data (keys ++ more) default = default :=
  PyData.safeGet_of_none (by rw [follow_append, lost]; rfl)

theorem IsChunk.reads (isChunk : IsChunk chunk) : Reads calls chunk where
  content := by
    obtain ⟨words, leads⟩ := isChunk.content
    rw [contentOf, textAt_of_leads leads]
    exact leads.safeGet
  responses state := by
    rw [responsesEvent, isChunk.noType]
    rfl
  image state := by
    have image : calls.safeGet chunk ["choices", 0, "delta", "images", 0, "image_url", "url"]
        (lit "") = lit "" :=
      lost_follow isChunk.noImages [0, "image_url", "url"] _
    rw [relayImage, image]
    rfl
  summary state := by
    obtain ⟨words, leads⟩ := isChunk.content
    have summary (name : String) : summaryPart calls chunk name = lit "" := by
      have lost : chunk.follow ["choices", 0, "delta", "content", 0, "summary", 0, .name name] = none := by
        refine (follow_append chunk ["choices", 0, "delta", "content"]
          [0, "summary", 0, .name name]).trans ?_
        rcases leads with found | ⟨lost, -⟩
        · rw [found]
          rfl
        · rw [lost]
          rfl
      exact PyData.safeGet_of_none lost
    rw [relaySummary, summary, summary]
    rfl
  message := by
    have message : calls.safeGet chunk ["choices", 0, "message", "content"] .none = .none :=
      lost_follow isChunk.noMessage ["content"] _
    rw [message]
    rfl
  reasoning := by
    rcases isChunk.reasoning with ⟨words, leads⟩ | null
    · have reads : reasoningOf chunk = words := textAt_of_leads leads
      rw [reads, leads.safeGet]
      cases words with
      | nil => exact .inl ⟨rfl, rfl⟩
      | cons letter words => exact .inr ⟨rfl, List.cons_ne_nil _ _⟩
    · refine .inl ⟨?_, ?_⟩
      · show (PyData.safeGet _ _ _ _).truthy = false
        rw [PyData.safeGet, null]
        cases calls.keepsFalsy <;> rfl
      · rw [reasoningOf, Client.textAt, null]
        rfl

theorem noteFinish_runs (line : PyData) : ∃ seen,
    noteFinish calls line state = (.ok (), { state with semanticTerminalSeen := seen }) := by
  rw [noteFinish]
  split
  · exact ⟨true, rfl⟩
  · exact ⟨state.semanticTerminalSeen, rfl⟩

theorem transformBehind_passes {line : PyData} (reads : Reads calls line)
    (nothing : reasoningOf line = []) :
    transformBehind calls line state = (.ok (), { state with sent := state.sent ++ [.chunk line] }) := by
  have noReasoning := (reads.reasoning.resolve_right fun both => both.2 nothing).1
  rw [transformBehind, bind_of_ok (reads.image state), if_neg Bool.false_ne_true,
    bind_of_ok (reads.summary state), if_neg Bool.false_ne_true,
    noReasoning, reads.message]
  rfl

theorem transformBehind_reasoning {line : PyData} (reads : Reads calls line)
    (some_ : reasoningOf line ≠ []) :
    transformBehind calls line state = relayEscaped calls (reasoningOf line) state := by
  obtain ⟨reasoning, -⟩ := reads.reasoning.resolve_left fun both => some_ both.2
  rw [transformBehind, bind_of_ok (reads.image state), if_neg Bool.false_ne_true,
    bind_of_ok (reads.summary state), if_neg Bool.false_ne_true,
    reasoning, if_pos ((PyData.truthy_str _).mpr some_)]
  rfl

/-- **What a state takes is done with.** -/
theorem transformContent_takes {line : PyData} (reads : Reads calls line) (taken : ¬ Passes state line)
    (fits : ¬ Overflows state line) : Quietly state (transformContent calls line) () := by
  rw [transformContent, reads.content]
  by_cases tags : InTags state (contentOf line)
  · exact (thinkTags_takes tags).bind fun _ => .pure ()
  refine .step (thinkTags_passes tags) (.refl state) ?_
  by_cases quote : InQuote state (contentOf line)
  · exact (quotedThinking_takes quote).bind fun _ => .pure ()
  obtain ⟨isThinking, runs⟩ := @quotedThinking_passes calls state _ quote
  refine .step runs (.of_flags rfl rfl) ?_
  have some_ : reasoningOf line ≠ [] := fun nothing => taken ⟨tags, quote, nothing⟩
  rw [Quietly]
  show ∃ after, transformBehind calls line _ = _ ∧ _
  rw [transformBehind_reasoning reads some_]
  exact relayEscaped_quietly some_ fun continues_ full => fits ⟨tags, quote, continues_, full⟩

/-- **What a state lets pass is sent on.** -/
theorem transformContent_passes {line : PyData} (reads : Reads calls line) (passes : Passes state line) :
    ∃ isThinking, transformContent calls line state
      = (.ok (), { state with isThinking := isThinking, sent := state.sent ++ [.chunk line] }) := by
  obtain ⟨tags, quote, nothing⟩ := passes
  obtain ⟨isThinking, runs⟩ := @quotedThinking_passes calls state _ quote
  refine ⟨isThinking, ?_⟩
  rw [transformContent, reads.content, bind_of_ok (thinkTags_passes tags)]
  show (quotedThinking calls (.str (contentOf line)) >>= _) state = _
  rw [bind_of_ok runs, if_neg Bool.false_ne_true, transformBehind_passes reads nothing]

/-- **An escape without room raises.** -/
theorem transformContent_raises {line : PyData} (reads : Reads calls line) (full : Overflows state line) :
    ∃ error after, transformContent calls line state = (.error error, after) ∧ Quiet state after := by
  obtain ⟨tags, quote, continues_, noRoom⟩ := full
  obtain ⟨isThinking, runs⟩ := @quotedThinking_passes calls state _ quote
  have some_ : reasoningOf line ≠ [] := by
    rcases continues_ with ⟨-, same⟩ | ⟨-, same⟩ <;> rw [same] <;> decide
  obtain ⟨error, raises⟩ := @relayEscaped_raises calls
    { state with isThinking := isThinking } _ continues_ noRoom
  refine ⟨error, { state with isThinking := isThinking }, ?_, .of_flags rfl rfl⟩
  rw [transformContent, reads.content, bind_of_ok (thinkTags_passes tags)]
  show (quotedThinking calls (.str (contentOf line)) >>= _) state = _
  rw [bind_of_ok runs, if_neg Bool.false_ne_true, transformBehind_reasoning reads some_, raises]

theorem transformEvent_chunk (isChunk : IsChunk chunk) : ∃ seen, transformEvent calls (.data chunk) state
    = transformContent calls (withId calls chunk) { state with semanticTerminalSeen := seen } := by
  obtain ⟨members, rfl⟩ := isChunk.isDict
  obtain ⟨seen, noted⟩ := @noteFinish_runs calls state (named calls members)
  have reads : Reads calls (named calls members) := isChunk.withId.reads
  refine ⟨seen, ?_⟩
  show transformLine calls (named calls members) state = _
  rw [transformLine, bind_of_ok noted, bind_of_ok (reads.responses _), if_neg Bool.false_ne_true]
  rfl

/-- **A chunk that passes is sent on** under the id of the stream. -/
theorem transformEvent_passes (isChunk : IsChunk chunk) (passes : Passes state chunk) : ∃ after,
    transformEvent calls (.data chunk) state = (.ok (), after) ∧
      after.completedNormally = state.completedNormally ∧
      after.sent = state.sent ++ [.chunk (withId calls chunk)] := by
  obtain ⟨seen, runs⟩ := @transformEvent_chunk calls state chunk isChunk
  obtain ⟨isThinking, passed⟩ := @transformContent_passes calls
    { state with semanticTerminalSeen := seen } _
    isChunk.withId.reads ((passes_withId calls).mpr passes)
  refine ⟨_, runs.trans passed, ?_, ?_⟩ <;> rfl

/-- **A chunk that does not pass is not sent on.** -/
theorem transformEvent_takes (isChunk : IsChunk chunk) (taken : ¬ Passes state chunk)
    (fits : ¬ Overflows state chunk) : Quietly state (transformEvent calls (.data chunk)) () := by
  obtain ⟨seen, runs⟩ := @transformEvent_chunk calls state chunk isChunk
  obtain ⟨after, done, quiet⟩ := @transformContent_takes calls { state with semanticTerminalSeen := seen } _
    isChunk.withId.reads (mt (passes_withId calls).mp taken) (mt (overflows_withId calls).mp fits)
  exact ⟨after, runs.trans done, quiet.stays, quiet.sends⟩

/-- **A chunk that overflows the escape buffer ends the stream.** -/
theorem transformEvent_raises (isChunk : IsChunk chunk) (full : Overflows state chunk) : ∃ error after,
    transformEvent calls (.data chunk) state = (.error error, after) ∧ Quiet state after := by
  obtain ⟨seen, runs⟩ := @transformEvent_chunk calls state chunk isChunk
  obtain ⟨error, after, raises, quiet⟩ := @transformContent_raises calls
    { state with semanticTerminalSeen := seen } _ isChunk.withId.reads ((overflows_withId calls).mpr full)
  exact ⟨error, after, runs.trans raises, quiet.stays, quiet.sends⟩

theorem Passes.fits (passes : Passes state chunk) : ¬ Overflows state chunk := by
  rintro ⟨-, -, ⟨-, same⟩ | ⟨-, same⟩, -⟩ <;>
  · rw [passes.2.2] at same
    exact absurd same (by decide)

end Chunks

/-! ### Runs -/

section Runs

variable (calls : RelayCalls)

/-- **Every chunk with something to act on passes, and none follows one that overflows the escape
buffer.** -/
def Relays : RelayState → List PyData → Prop
  | _, [] => True
  | state, chunk :: chunks =>
    (actions chunk ≠ [] → Passes state chunk) ∧
      (Overflows state chunk → ∀ later ∈ chunks, actions later = []) ∧
      Relays (transformEvent calls (.data chunk) state).2 chunks

/-- What the stream sends of chunks, with these flags and these buffers at the beginning. -/
def delivered (flags : RelayState) (chunks : List PyData) : List PyData :=
  relayedChunks (transformEvents calls (chunks.map .data)
    { flags with completedNormally := false, sent := [] }).2.sent

variable {calls}

theorem flatMap_actions {chunks : List PyData} :
    chunks.flatMap actions = [] ↔ ∀ chunk ∈ chunks, actions chunk = [] := List.flatMap_eq_nil_iff

theorem relays_of_silent : ∀ {chunks : List PyData} (state : RelayState),
    (∀ chunk ∈ chunks, actions chunk = []) → Relays calls state chunks
  | [], _, _ => trivial
  | chunk :: _, _, silent =>
    ⟨fun acts => absurd (silent chunk List.mem_cons_self) acts,
      fun _ later among => silent later (List.mem_cons_of_mem chunk among),
      relays_of_silent _ fun later among => silent later (List.mem_cons_of_mem chunk among)⟩

/-- **What a run of chunks sends** is some of what a client acts on, and all of it if the run relays it. -/
theorem transformEvents_sends : ∀ {chunks : List PyData} {state : RelayState},
    (∀ chunk ∈ chunks, IsChunk chunk) → state.completedNormally = false → ∃ items,
      (transformEvents calls (chunks.map .data) state).2.sent = state.sent ++ items ∧
        ((relayedChunks items).flatMap actions).Sublist (chunks.flatMap actions) ∧
        ((chunks.flatMap actions).Sublist ((relayedChunks items).flatMap actions)
          ↔ Relays calls state chunks)
  | [], state, _, _ => ⟨[], (List.append_nil _).symm, .slnil, iff_of_true .slnil trivial⟩
  | chunk :: chunks, state, areChunks, isOpen => by
    have isChunk := areChunks chunk List.mem_cons_self
    have others : ∀ other ∈ chunks, IsChunk other := fun other among =>
      areChunks other (List.mem_cons_of_mem chunk among)
    rw [List.map_cons, transformEvents, List.flatMap_cons, Relays]
    by_cases passes : Passes state chunk
    · obtain ⟨after, runs, stays, sent⟩ := @transformEvent_passes calls state chunk isChunk passes
      obtain ⟨items, sends, some_, all⟩ := @transformEvents_sends chunks after others (stays.trans isOpen)
      have same : (relayedChunks (.chunk (withId calls chunk) :: items)).flatMap actions
          = actions chunk ++ (relayedChunks items).flatMap actions := by
        show actions (withId calls chunk) ++ _ = _
        rw [actions_withId]
        rfl
      refine ⟨.chunk (withId calls chunk) :: items, ?_, ?_, ?_⟩
      · rw [bind_of_ok runs, get_bind, stays, isOpen]
        show (transformEvents calls (chunks.map .data) after).2.sent = _
        rw [sends, sent, List.append_assoc]
        rfl
      · rw [same]
        exact (List.append_sublist_append_left _).mpr some_
      · rw [same, List.append_sublist_append_left, all, runs]
        constructor
        · exact fun relays => ⟨fun _ => passes, fun full => absurd full passes.fits, relays⟩
        · exact fun relays => relays.2.2
    by_cases full : Overflows state chunk
    · obtain ⟨error, after, raises, quiet⟩ := @transformEvent_raises calls state chunk isChunk full
      obtain ⟨items, sent, silent⟩ := quiet.sends
      refine ⟨items, ?_, ?_, ?_⟩
      · rw [Raise.bind_apply, raises]
        exact sent
      · rw [silent]
        exact List.nil_sublist _
      · rw [silent, List.sublist_nil, List.append_eq_nil_iff, flatMap_actions]
        constructor
        · rintro ⟨nothing, later⟩
          exact ⟨fun acts => absurd nothing acts, fun _ => later, relays_of_silent _ later⟩
        · rintro ⟨acts, later, -⟩
          exact ⟨not_not.mp (mt acts passes), later full⟩
    · obtain ⟨after, runs, quiet⟩ := @transformEvent_takes calls state chunk isChunk passes full
      obtain ⟨silentItems, sent, silent⟩ := quiet.sends
      obtain ⟨items, sends, some_, all⟩ := @transformEvents_sends chunks after others
        (quiet.stays.trans isOpen)
      have same : (relayedChunks (silentItems ++ items)).flatMap actions
          = (relayedChunks items).flatMap actions := by
        rw [relayedChunks_append, List.flatMap_append, silent, List.nil_append]
      refine ⟨silentItems ++ items, ?_, ?_, ?_⟩
      · rw [bind_of_ok runs, get_bind, quiet.stays, isOpen]
        show (transformEvents calls (chunks.map .data) after).2.sent = _
        rw [sends, sent, List.append_assoc]
      · rw [same]
        exact some_.trans (List.sublist_append_right _ _)
      · rw [same, runs, ← all]
        constructor
        · intro kept
          -- what was dropped would be missing in what was sent
          have nothing : actions chunk = [] := by
            have fewer := kept.length_le.trans some_.length_le
            rw [List.length_append] at fewer
            exact List.eq_nil_of_length_eq_zero (by omega)
          rw [nothing] at kept
          exact ⟨fun acts => absurd nothing acts, fun full' => absurd full' full, kept⟩
        · rintro ⟨acts, -, kept⟩
          rwa [not_not.mp (mt acts passes)]

/-- **The pass-through keeps every tool call delta and every finish reason**, in order, exactly when each
chunk that has one meets a state in which no branch for a thinking text or a reasoning takes it, and no
chunk before it overflows the escape buffer. -/
theorem relay_keeps_iff (calls : RelayCalls) (flags : RelayState) (chunks : List PyData)
    (areChunks : ∀ chunk ∈ chunks, IsChunk chunk) :
    (chunks.flatMap actions).Sublist ((delivered calls flags chunks).flatMap actions) ↔
      Relays calls { flags with completedNormally := false, sent := [] } chunks := by
  obtain ⟨items, sends, -, all⟩ := @transformEvents_sends calls chunks
    { flags with completedNormally := false, sent := [] } areChunks rfl
  rw [delivered, sends]
  exact all

/-! The chunk of a tool call is relayed, and lost if it has a reasoning too. -/

/-- Calls with the decoder of the library. -/
noncomputable def plainRelay : RelayCalls where
  toStreamCalls := plainCalls
  seedOf value :=
    match value.asList, value.asDict with
    | none, none => some 0
    | _, _ => none

/-- The last chunk of a tool call, with these members in its delta besides the call. -/
def callChunk (members : List (String × PyData)) : PyData :=
  .dict [("object", lit "chat.completion.chunk"), ("choices", .list [.dict [("index", .int 0),
    ("delta", .dict (("tool_calls", .list [Client.headerDelta [97] [98]]) :: members)),
    ("finish_reason", lit "tool_calls")]])]

/-- A chunk of an answer, with a finish reason or null. -/
def answerChunk (members : List (String × PyData)) (finish : PyData) : PyData :=
  .dict [("object", lit "chat.completion.chunk"), ("choices", .list [.dict [("index", .int 0),
    ("delta", .dict members), ("finish_reason", finish)]])]

/-- An answer that begins with a text and calls a tool. -/
def callingAnswer : List PyData :=
  [answerChunk [("content", lit "Hi")] .none,
    answerChunk [("tool_calls", .list [Client.headerDelta [97] [98]])] .none,
    answerChunk [("tool_calls", .list [Client.argumentsDelta [123, 125]])] .none,
    answerChunk [] (lit "tool_calls")]

theorem callingAnswer_areChunks : ∀ chunk ∈ callingAnswer, IsChunk chunk := by
  have text : IsChunk (answerChunk [("content", lit "Hi")] .none) :=
    ⟨⟨_, rfl⟩, rfl, rfl, rfl, ⟨[72, 105], .inl rfl⟩, .inl ⟨[], .inr ⟨rfl, rfl⟩⟩⟩
  have header : IsChunk (answerChunk [("tool_calls", .list [Client.headerDelta [97] [98]])] .none) :=
    ⟨⟨_, rfl⟩, rfl, rfl, rfl, ⟨[], .inr ⟨rfl, rfl⟩⟩, .inl ⟨[], .inr ⟨rfl, rfl⟩⟩⟩
  have arguments : IsChunk (answerChunk [("tool_calls", .list [Client.argumentsDelta [123, 125]])] .none) :=
    ⟨⟨_, rfl⟩, rfl, rfl, rfl, ⟨[], .inr ⟨rfl, rfl⟩⟩, .inl ⟨[], .inr ⟨rfl, rfl⟩⟩⟩
  have finish : IsChunk (answerChunk [] (lit "tool_calls")) :=
    ⟨⟨_, rfl⟩, rfl, rfl, rfl, ⟨[], .inr ⟨rfl, rfl⟩⟩, .inl ⟨[], .inr ⟨rfl, rfl⟩⟩⟩
  intro chunk among
  simp only [callingAnswer, List.mem_cons, List.not_mem_nil, or_false] at among
  rcases among with rfl | rfl | rfl | rfl <;> assumption

/-- Outside a thinking text, a chunk without tags and without a reasoning passes. -/
theorem passes_outside {state : RelayState} {chunk : PyData} (outside : state.isThinking = false)
    (noTag : has "<think>" (contentOf chunk) = false ∧ has "</think>" (contentOf chunk) = false)
    (noQuote : opensQuote (contentOf chunk) = false) (noReasoning : reasoningOf chunk = []) :
    Passes state chunk := by
  refine ⟨?_, ?_, noReasoning⟩
  · rintro (tag | tag | ⟨thinking, -⟩)
    · rw [noTag.1] at tag; cases tag
    · rw [noTag.2] at tag; cases tag
    · rw [outside] at thinking; cases thinking
  · rintro ⟨-, thinking | quote, -⟩
    · rw [outside] at thinking; cases thinking
    · rw [noQuote] at quote; cases quote

theorem relay_keeps_iff_call :
    (callingAnswer.flatMap actions).Sublist ((delivered plainRelay {} callingAnswer).flatMap actions) := by
  refine (relay_keeps_iff plainRelay {} callingAnswer callingAnswer_areChunks).mpr ?_
  have noTag : ∀ content ∈ [Utf8.points "Hi", []], (has "<think>" content = false ∧
      has "</think>" content = false) ∧ opensQuote content = false := by decide
  have passes : ∀ (state : RelayState), state.isThinking = false → ∀ chunk ∈ callingAnswer,
      Passes state chunk := by
    intro state outside chunk among
    simp only [callingAnswer, List.mem_cons, List.not_mem_nil, or_false] at among
    rcases among with rfl | rfl | rfl | rfl
    · exact passes_outside outside (noTag _ List.mem_cons_self).1 (noTag _ List.mem_cons_self).2 rfl
    all_goals exact passes_outside outside (noTag [] (by simp)).1 (noTag [] (by simp)).2 rfl
  have relays : ∀ (state : RelayState) (chunk : PyData) (chunks : List PyData),
      state.isThinking = false → chunk ∈ callingAnswer →
        Relays plainRelay (transformEvent plainRelay (.data chunk) state).2 chunks →
          Relays plainRelay state (chunk :: chunks) := fun state chunk chunks outside among later =>
    ⟨fun _ => passes state outside chunk among,
      fun full => absurd full (passes state outside chunk among).fits, later⟩
  exact relays _ _ _ rfl (by simp [callingAnswer]) (relays _ _ _ rfl (by simp [callingAnswer])
    (relays _ _ _ rfl (by simp [callingAnswer]) (relays _ _ _ rfl (by simp [callingAnswer]) trivial)))

theorem reasoned_call_lost : IsChunk (callChunk [("reasoning", lit "a")]) ∧
    ¬ ([callChunk [("reasoning", lit "a")]].flatMap actions).Sublist
      ((delivered plainRelay {} [callChunk [("reasoning", lit "a")]]).flatMap actions) := by
  have isChunk : IsChunk (callChunk [("reasoning", lit "a")]) :=
    ⟨⟨_, rfl⟩, rfl, rfl, rfl, ⟨[], .inr ⟨rfl, rfl⟩⟩, .inl ⟨[97], .inl rfl⟩⟩
  refine ⟨isChunk, fun kept => ?_⟩
  have areChunks : ∀ chunk ∈ [callChunk [("reasoning", lit "a")]], IsChunk chunk := fun chunk among => by
    rwa [List.mem_singleton.mp among]
  obtain ⟨items, sends, -, all⟩ := @transformEvents_sends plainRelay _ { } areChunks rfl
  rw [delivered, sends] at kept
  have passes := (all.mp kept).1 (List.cons_ne_nil _ _)
  exact absurd passes.2.2 (by decide)

end Runs

end UniApi.Providers.OpenaiStream
