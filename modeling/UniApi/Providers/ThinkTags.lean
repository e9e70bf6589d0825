/-
**Thinking tags of the OpenAI-compatible pass-through, as texts.**

Of a chunk that delivers a content alone, the pass-through sends a reasoning, a content, or both,
and it keeps three flags.

* `separate`: what becomes of a content, and of the flags;
* `transformEvent_text`: `transform_event` does that;
* `transformEvents_texts`: so does a run of chunks.
-/

import UniApi.Lib.Removal
import UniApi.Providers.OpenaiRelay

namespace UniApi.Providers.OpenaiStream

open UniApi.Lib UniApi.Streaming
open UniApi.Lib.PyData (lit)

/-! ### What becomes of a content -/

/-- `is_thinking`, `has_send_thinking` and `ark_tag`. -/
structure Flags where
  thinking : Bool := false
  sending : Bool := false
  tagged : Bool := false

def RelayState.flags (state : RelayState) : Flags :=
  ⟨state.isThinking, state.hasSendThinking, state.arkTag⟩

/-- A text that is sent as reasoning. -/
def thought (flags : Flags) (words : PyText) : Flags × PyText × PyText :=
  ({ flags with sending := flags.sending || !words.isEmpty }, words, [])

/-- A content behind the tags: a quoted thinking text, or a content. -/
def separateQuote (flags : Flags) (words : PyText) : Flags × PyText × PyText :=
  let thinking := (flags.thinking || opensQuote words) &&
    (!has "\n\n" (quoted words) || flags.tagged)
  let flags := { flags with thinking }
  if thinking && !flags.tagged then
    let text := replaced "\n> " "" (quoted words)
    thought flags (if flags.sending then text else replaced "\n" "" text)
  else (flags, [], words)

/-- A content behind `<think>`. -/
def separateBehind (flags : Flags) (words : PyText) : Flags × PyText × PyText :=
  if has "</think>" words then ({ flags with thinking := false }, endThink words)
  else if flags.thinking && flags.tagged then
    thought flags (if flags.sending then words else replaced "\n\n" "" words)
  else separateQuote flags words

/-- **What becomes of a content**: the flags behind it, the reasoning and the content that are
sent. -/
def separate (flags : Flags) (words : PyText) : Flags × PyText × PyText :=
  if has "<think>" words then
    separateBehind { flags with thinking := true, tagged := true } (replaced "<think>" "" words)
  else separateBehind flags words

/-- The contents of a run. -/
def separateAll (flags : Flags) : List PyText → PyText × PyText
  | [] => ([], [])
  | words :: rest =>
    let (after, reasoning, content) := separate flags words
    let (reasonings, contents) := separateAll after rest
    (reasoning ++ reasonings, content ++ contents)

/-! ### What a client reads -/

/-- The reasoning deltas of what was sent. -/
def reasonings (sent : List Relayed) : PyText :=
  (relayedChunks sent).flatMap (Client.textAt · ["choices", 0, "delta", "reasoning_content"])

/-- The content deltas of what was sent. -/
def contents (sent : List Relayed) : PyText := (relayedChunks sent).flatMap contentOf

theorem reasonings_append (first second : List Relayed) :
    reasonings (first ++ second) = reasonings first ++ reasonings second := by
  rw [reasonings, relayedChunks_append, List.flatMap_append]
  rfl

theorem contents_append (first second : List Relayed) :
    contents (first ++ second) = contents first ++ contents second := by
  rw [contents, relayedChunks_append, List.flatMap_append]
  rfl

/-- **From this state the call returns this**, with these flags behind it, and sends this
reasoning and content. -/
def Separates {α : Type} (state : RelayState) (call : Relaying α) (value : α)
    (result : Flags × PyText × PyText) :
    Prop :=
  ∃ after, call state = (.ok value, after) ∧ after.flags = result.1 ∧
    after.completedNormally = state.completedNormally ∧ ∃ items, after.sent = state.sent ++ items ∧
      reasonings items = result.2.1 ∧ contents items = result.2.2

namespace Separates

variable {α β : Type} {state : RelayState}

theorem pure (value : α) : Separates state (Pure.pure value) value (state.flags, [], []) :=
  ⟨state, rfl, rfl, rfl, [], (List.append_nil _).symm, rfl, rfl⟩

/-- A call after one that is known. -/
theorem step {call : Relaying α} {next : α → Relaying β} {value : α} {result : β} {flags : Flags}
    {reasoning content : PyText} {flags' : Flags} {reasoning' content' : PyText}
    (first : Separates state call value (flags, reasoning, content))
    (second : ∀ after, after.flags = flags → Separates after (next value) result
      (flags', reasoning', content')) :
    Separates state (call >>= next) result
      (flags', reasoning ++ reasoning', content ++ content') := by
  obtain ⟨between, runs, flagsBetween, stays, items, sent, isReasoning, isContent⟩ := first
  obtain ⟨after, runs', flagsAfter, stays', items', sent', isReasoning', isContent'⟩ :=
    second between flagsBetween
  refine ⟨after, ?_, flagsAfter, stays'.trans stays, items ++ items', ?_, ?_, ?_⟩
  · rw [Raise.bind_apply, runs]
    exact runs'
  · rw [sent', sent, List.append_assoc]
  · rw [reasonings_append, isReasoning, isReasoning']
  · rw [contents_append, isContent, isContent']

/-- A call after one that sends nothing. -/
theorem silent (between : RelayState) {call : Relaying α} {next : α → Relaying β}
    {value : α} {result : β}
    {last : Flags × PyText × PyText} (runs : call state = (.ok value, between))
    (stays : between.completedNormally = state.completedNormally) (same : between.sent = state.sent)
    (later : Separates between (next value) result last) :
    Separates state (call >>= next) result last := by
  obtain ⟨after, runs', flagsAfter, stays', items, sent, both⟩ := later
  refine ⟨after, ?_, flagsAfter, stays'.trans stays, items, by rw [sent, same], both⟩
  rw [Raise.bind_apply, runs]
  exact runs'

theorem returning {call : Relaying α} {next : α → Relaying β} {value : α} {result : β}
    {last : Flags × PyText × PyText}
    (sends : Separates state call value last) (ends : next value = Pure.pure result) :
    Separates state (call >>= next) result last := by
  obtain ⟨after, runs, rest⟩ := sends
  refine ⟨after, ?_, rest⟩
  rw [Raise.bind_apply, runs]
  show next value after = _
  rw [ends]
  rfl

theorem of_eq {call : Relaying α} {value : α} {result result' : Flags × PyText × PyText}
    (separates : Separates state call value result) (same : result = result') :
    Separates state call value result' :=
  same ▸ separates

theorem chunk {payload : PyData} {reasoning content : PyText}
    (isReasoning : Client.textAt payload ["choices", 0, "delta", "reasoning_content"] = reasoning)
    (isContent : contentOf payload = content) :
    Separates state (relay (.chunk payload)) () (state.flags, reasoning, content) := by
  refine ⟨_, rfl, rfl, rfl, [.chunk payload], rfl, ?_, ?_⟩
  · exact (List.append_nil _).trans isReasoning
  · exact (List.append_nil _).trans isContent

end Separates

section Steps

variable {calls : RelayCalls} {state : RelayState}

theorem relayReasoning_separates (words : PyText) :
    Separates state (relayIf (relayReasoning calls) words) () (state.flags, words, []) := by
  cases words with
  | nil => exact .pure ()
  | cons letter words => exact .chunk rfl rfl

theorem relayContent_separates (words : PyText) :
    Separates state (relayIf (relayContent calls) words) () (state.flags, [], words) := by
  cases words with
  | nil => exact .pure ()
  | cons letter words => exact .chunk rfl rfl

theorem relayThinking_separates (words : PyText) :
    Separates state (relayThinking calls (.str words)) () (thought state.flags words) := by
  cases words with
  | nil =>
    refine (Separates.pure ()).of_eq ?_
    rw [thought, List.isEmpty_nil, Bool.not_true, Bool.or_false]
  | cons letter words =>
    have sends : Separates state (relayReasoning calls (.str (letter :: words))) ()
        (state.flags, letter :: words, []) :=
      .chunk rfl rfl
    have noted (after : RelayState) (same : after.flags = state.flags) :
        Separates after (Raise.modify ({ · with hasSendThinking := true })) ()
          ({ state.flags with sending := true }, [], []) := by
      refine ⟨{ after with hasSendThinking := true }, rfl, ?_, rfl, [],
        (List.append_nil _).symm, rfl, rfl⟩
      rw [← same]
      rfl
    refine (sends.step noted).of_eq ?_
    rw [thought, List.append_nil, List.isEmpty_cons, Bool.not_false, Bool.or_true]
    rfl

theorem closeTag_separates (words : PyText) : Separates state (closeTag calls (.str words)) ()
    ({ state.flags with thinking := false }, endThink words) := by
  have first := @relayReasoning_separates calls { state with isThinking := false } (endThink words).1
  have second (after : RelayState) (same : after.flags =
      ({ state with isThinking := false } : RelayState).flags) :
      Separates after (relayIf (relayContent calls) (endThink words).2) ()
        ({ state.flags with thinking := false }, [], (endThink words).2) :=
    (relayContent_separates _).of_eq (by rw [same]; rfl)
  refine Separates.silent { state with isThinking := false } rfl rfl rfl ?_
  refine (first.step second).of_eq ?_
  rw [List.append_nil, List.nil_append]

theorem insideTags_separates (words : PyText) : Separates state (insideTags calls (.str words)) ()
    (thought state.flags (if state.flags.sending then words else replaced "\n\n" "" words)) := by
  refine Separates.silent state rfl rfl rfl ?_
  show Separates state (if state.hasSendThinking = true then _ else _) ()
      (thought _ (if state.hasSendThinking = true then _ else _))
  split
  · exact relayThinking_separates words
  · exact relayThinking_separates _

theorem insideQuote_separates (words : PyText) : Separates state (insideQuote calls (.str words)) ()
    (thought state.flags (if state.flags.sending then replaced "\n> " "" words
      else replaced "\n" "" (replaced "\n> " "" words))) := by
  refine Separates.silent state rfl rfl rfl ?_
  show Separates state (if state.hasSendThinking = true then _ else _) ()
      (thought _ (if state.hasSendThinking = true then _ else _))
  split
  · exact relayThinking_separates _
  · exact relayThinking_separates _

/-- **A text with `</think>`, or between the tags.** -/
theorem behindTag_separates {words : PyText}
    (taken : has "</think>" words = true ∨ state.isThinking = true ∧ state.arkTag = true) :
    Separates state (behindTag calls (.str words)) none (separateBehind state.flags words) := by
  rw [behindTag, isIn_str, return_bind, separateBehind]
  by_cases closes : has "</think>" words = true
  · rw [if_pos closes, if_pos closes]
    exact (closeTag_separates words).returning rfl
  · obtain ⟨thinking, tagged⟩ := taken.resolve_left closes
    have inside : (state.flags.thinking && state.flags.tagged) = true := by
      show (state.isThinking && state.arkTag) = true
      rw [thinking, tagged]
      rfl
    rw [if_neg closes, if_neg closes, if_pos inside]
    refine Separates.silent state rfl rfl rfl ?_
    show Separates state (if (state.isThinking && state.arkTag) = true then _ else _) none _
    rw [if_pos (show (state.isThinking && state.arkTag) = true from inside)]
    exact (insideTags_separates words).returning rfl

theorem quotedThinking_separates {words : PyText} (inside : InQuote state words) :
    Separates state (quotedThinking calls (.str words)) true (separateQuote state.flags words) := by
  obtain ⟨noTag, thinking, noBlank⟩ := inside
  have isInside : ((state.isThinking || opensQuote words) &&
      (!has "\n\n" (quoted words) || state.arkTag)) = true := by
    simpa [noTag, noBlank] using thinking
  have both : (((state.isThinking || opensQuote words) &&
      (!has "\n\n" (quoted words) || state.arkTag)) &&
      !state.arkTag) = true := by rw [isInside, noTag]; rfl
  refine Separates.silent _ (openQuote_runs words) rfl rfl ?_
  refine Separates.silent _ (closeQuote_runs _) rfl rfl ?_
  refine (Separates.silent _ rfl rfl rfl ?_).of_eq (if_pos both).symm
  show Separates _ (if (((state.isThinking || opensQuote words) &&
    (!has "\n\n" (quoted words) || state.arkTag)) && !state.arkTag) = true then _ else _) true _
  rw [if_pos both]
  exact (insideQuote_separates (quoted words)).returning rfl

/-- A text outside a quote. -/
theorem quotedThinking_leaves {words : PyText} (outside : ¬ InQuote state words) :
    ∃ after, quotedThinking calls (.str words) state = (.ok false, after) ∧
      (after.flags, ([] : PyText), words) = separateQuote state.flags words ∧
      after.completedNormally = state.completedNormally ∧ after.sent = state.sent := by
  have isOutside : (((state.isThinking || opensQuote words) &&
      (!has "\n\n" (quoted words) || state.arkTag)) && !state.arkTag) = false := by
    rw [Bool.eq_false_iff]
    intro isInside
    refine outside ?_
    simp only [Bool.and_eq_true, Bool.or_eq_true, Bool.not_eq_true'] at isInside
    obtain ⟨⟨thinking, noBlank⟩, noTag⟩ := isInside
    exact ⟨noTag, thinking, noBlank.resolve_right (by simp [noTag])⟩
  refine ⟨{ state with isThinking := (state.isThinking || opensQuote words) &&
    (!has "\n\n" (quoted words) || state.arkTag) }, ?_, ?_, rfl, rfl⟩
  · rw [quotedThinking, bind_of_ok (openQuote_runs words), bind_of_ok (closeQuote_runs _), get_bind,
      if_neg (Bool.eq_false_iff.mp isOutside)]
    rfl
  · exact (if_neg (Bool.eq_false_iff.mp isOutside)).symm

end Steps

/-! ### A chunk of a content -/

/-- A chunk that delivers a content alone. -/
structure IsText (chunk : PyData) (words : PyText) : Prop where
  isChunk : IsChunk chunk
  content : contentOf chunk = words
  noReasoning : reasoningOf chunk = []
  noThought : Client.textAt chunk ["choices", 0, "delta", "reasoning_content"] = []

section Chunks

variable {calls : RelayCalls} {state : RelayState} {chunk : PyData} {words : PyText}

theorem transformBehind_separates {line : PyData} (reads : Reads calls line)
    (nothing : reasoningOf line = [])
    (noThought : Client.textAt line ["choices", 0, "delta", "reasoning_content"] = []) :
    Separates state (transformBehind calls line) () (state.flags, [], contentOf line) := by
  refine ⟨_, transformBehind_passes reads nothing, rfl, rfl, [.chunk line], rfl, ?_, ?_⟩
  · exact (List.append_nil _).trans noThought
  · exact List.append_nil _

/-- **A content behind the tags.** -/
theorem transformContent_behind {line : PyData} (reads : Reads calls line)
    (nothing : reasoningOf line = [])
    (noThought : Client.textAt line ["choices", 0, "delta", "reasoning_content"] = [])
    (outside : ¬ InTags state (contentOf line)) :
    Separates state (transformContent calls line) ()
      (separateQuote state.flags (contentOf line)) := by
  rw [transformContent, reads.content]
  refine Separates.silent state (thinkTags_passes outside) rfl rfl ?_
  by_cases quote : InQuote state (contentOf line)
  · exact (quotedThinking_separates quote).returning rfl
  · obtain ⟨after, runs, same, stays, sent⟩ := @quotedThinking_leaves calls state _ quote
    refine (Separates.silent after runs stays sent ?_).of_eq same
    exact transformBehind_separates reads nothing noThought

/-- **`transform_event` of a content.** -/
theorem transformContent_separates {line : PyData} (reads : Reads calls line)
    (nothing : reasoningOf line = [])
    (noThought : Client.textAt line ["choices", 0, "delta", "reasoning_content"] = []) :
    Separates state (transformContent calls line) () (separate state.flags (contentOf line)) := by
  by_cases opens : has "<think>" (contentOf line) = true
  · have opened : openTag (.str (contentOf line)) state
        = (.ok (.str (replaced "<think>" "" (contentOf line))),
          { state with isThinking := true, arkTag := true }) := by
      rw [openTag, isIn_str, opens]
      rfl
    have taken := @behindTag_separates calls { state with isThinking := true, arkTag := true }
      (replaced "<think>" "" (contentOf line)) (.inr ⟨rfl, rfl⟩)
    have tags : Separates state (thinkTags calls (.str (contentOf line))) none
        (separate state.flags (contentOf line)) := by
      rw [separate, if_pos opens]
      exact Separates.silent _ opened rfl rfl taken
    rw [transformContent, reads.content]
    exact tags.returning rfl
  · rw [separate, if_neg opens]
    by_cases inside : InTags state (contentOf line)
    · have taken := @behindTag_separates calls state (contentOf line) (inside.resolve_left opens)
      have opened : openTag (.str (contentOf line)) state =
          (.ok (.str (contentOf line)), state) := by
        rw [openTag, isIn_str, Bool.eq_false_iff.mpr opens]
        rfl
      have tags : Separates state (thinkTags calls (.str (contentOf line))) none
          (separateBehind state.flags (contentOf line)) := Separates.silent _ opened rfl rfl taken
      rw [transformContent, reads.content]
      exact tags.returning rfl
    · have outside := inside
      rw [InTags, not_or, not_or] at inside
      have notInside : ¬ (state.flags.thinking && state.flags.tagged) = true := fun both =>
        inside.2.2 (Bool.and_eq_true_iff.mp both)
      rw [separateBehind, if_neg inside.2.1, if_neg notInside]
      exact transformContent_behind reads nothing noThought outside

/-- **`transform_event` of a chunk of a content.** -/
theorem transformEvent_text (isText : IsText chunk words) :
    Separates state (transformEvent calls (.data chunk)) () (separate state.flags words) := by
  obtain ⟨seen, runs⟩ := @transformEvent_chunk calls state chunk isText.isChunk
  have thoughtless : Client.textAt (withId calls chunk)
      ["choices", 0, "delta", "reasoning_content"] = [] := by
    rw [Client.textAt, follow_withId chunk (by decide)]
    exact isText.noThought
  have done := @transformContent_separates calls { state with semanticTerminalSeen := seen } _
    (@IsChunk.withId calls chunk isText.isChunk).reads
      (reasoningOf_withId.trans isText.noReasoning) thoughtless
  rw [contentOf_withId, isText.content] at done
  obtain ⟨after, runs', rest⟩ := done
  exact ⟨after, runs.trans runs', rest⟩

/-- **A run of chunks of contents.** -/
theorem transformEvents_texts {chunks : List PyData} {texts : List PyText}
    (areTexts : List.Forall₂ IsText chunks texts) :
    ∀ {state : RelayState}, state.completedNormally = false → ∃ items,
      (transformEvents calls (chunks.map .data) state).2.sent = state.sent ++ items ∧
        (reasonings items, contents items) = separateAll state.flags texts := by
  induction areTexts with
  | nil => exact fun _ => ⟨[], (List.append_nil _).symm, rfl⟩
  | @cons chunk words chunks texts isText areTexts ih =>
    intro state isOpen
    obtain ⟨after, runs, flags, stays, first, sent, isReasoning, isContent⟩ :=
      @transformEvent_text calls state chunk words isText
    obtain ⟨rest, sentRest, separated⟩ := ih (stays.trans isOpen)
    refine ⟨first ++ rest, ?_, ?_⟩
    · rw [List.map_cons, transformEvents, bind_of_ok runs, get_bind, stays, isOpen]
      show (transformEvents calls (chunks.map .data) after).2.sent = _
      rw [sentRest, sent, List.append_assoc]
    · rw [flags] at separated
      obtain ⟨isReasonings, areContents⟩ := Prod.mk.inj separated
      rw [separateAll, reasonings_append, contents_append, isReasoning, isContent,
        isReasonings, areContents]

end Chunks

end UniApi.Providers.OpenaiStream
