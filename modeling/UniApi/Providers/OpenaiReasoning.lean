/-
**Reasoning in pieces: the escape buffer of `fetch_gpt_response_stream`.**

A backslash at the end of a piece is held back, and with it line breaks that come in pieces of their own.
What is held is followed through the pieces (`Held`).

* `unescape_append`: a text is unfolded part by part, unless an escape is cut;
* `relayEscaped_runs`: what is sent and what is held of a piece;
* `sentOf_whole`, `sentOf_eq_iff`: what is sent of pieces, and when it is all of them;
* `reasoning_unfolded_iff`: when a client has the whole reasoning.
-/

import UniApi.Providers.OpenaiRelay

namespace UniApi.Providers.OpenaiStream

open UniApi.Lib UniApi.Streaming
open UniApi.Lib.PyData (lit)

/-! ### Unfolding -/

/-- `\n` in two letters. -/
def lineEscape : PyText := Utf8.points "\\n"

/-- The text with each `\n` replaced by a line break. -/
def unescape (text : PyText) : PyText := replaced "\\n" "\n" text

theorem unescape_nil : unescape [] = [] := rfl

theorem unescape_escape (text : PyText) : unescape (92 :: 110 :: text) = 10 :: unescape text := rfl

theorem unescape_cons {letter : CodePoint} {text : PyText}
    (noEscape : letter = 92 → text.head? ≠ some 110) :
    unescape (letter :: text) = letter :: unescape text := by
  have noPrefix : ¬ (Utf8.points "\\n").isPrefixOf (letter :: text) = true := by
    rw [List.isPrefixOf_iff_prefix]
    rintro ⟨rest, same⟩
    obtain ⟨isSlash, others⟩ := List.cons.inj same
    exact noEscape isSlash.symm (by rw [← others]; rfl)
  exact if_neg noPrefix

/-- **Unfolding part by part**, where no escape is cut. -/
theorem unescape_append : ∀ {first second : PyText},
    (first.getLast? = some 92 → second.head? ≠ some 110) →
      unescape (first ++ second) = unescape first ++ unescape second
  | [], _, _ => rfl
  | [letter], second, whole => by
    rw [List.singleton_append, unescape_cons fun isSlash => whole (by rw [isSlash]; rfl),
      unescape_cons fun _ => by simp]
    rfl
  | letter :: next :: first, second, whole => by
    have whole' : (next :: first).getLast? = some 92 → second.head? ≠ some 110 := by
      rwa [List.getLast?_cons_cons] at whole
    by_cases escape : letter = 92 ∧ next = 110
    · obtain ⟨rfl, rfl⟩ := escape
      rw [List.cons_append, List.cons_append, unescape_escape, unescape_escape]
      cases first with
      | nil => rfl
      | cons other first =>
        rw [List.getLast?_cons_cons] at whole'
        rw [unescape_append whole']
        rfl
    · have noEscape : letter = 92 → (next :: first).head? ≠ some 110 := fun isSlash isN =>
        escape ⟨isSlash, Option.some.inj isN⟩
      have later := unescape_append whole'
      rw [List.cons_append, unescape_cons (show letter = 92 →
        (next :: first ++ second).head? ≠ some 110 from
        noEscape), later, unescape_cons noEscape]
      rfl

/-! ### What is held -/

/-- What the escape buffer holds: nothing, a backslash, or escapes that came in pieces of their own. -/
inductive Held where
  | nothing
  | slash
  | breaks (more : ℕ)

/-- The text of the buffer: one escape and the others behind it. -/
def Held.text : Held → PyText
  | nothing => []
  | slash => [92]
  | breaks more => (List.replicate (more + 1) lineEscape).flatten

theorem breaks_text (more : ℕ) : (Held.breaks (more + 1)).text = (Held.breaks more).text ++ lineEscape := by
  rw [Held.text, Held.text, List.replicate_succ' (n := more + 1), List.flatten_append,
    List.flatten_singleton]

theorem breaks_ends (more : ℕ) : ∃ front, (Held.breaks more).text = front ++ lineEscape := by
  cases more with
  | zero => exact ⟨[], rfl⟩
  | succ more => exact ⟨_, breaks_text more⟩

theorem breaks_encodes : ∀ more, ∃ bytes,
    Utf8.encodePoints (Held.breaks more).text = some bytes ∧ bytes.length = 2 * (more + 1)
  | 0 => ⟨[92, 110], by decide, rfl⟩
  | more + 1 => by
    obtain ⟨bytes, encodes, length⟩ := breaks_encodes more
    refine ⟨92 :: 110 :: bytes, ?_, ?_⟩
    · show Utf8.encodePoints (92 :: 110 :: (Held.breaks more).text) = _
      rw [Utf8.encodePoints, Utf8.encodePoints, encodes]
      rfl
    · rw [List.length_cons, List.length_cons, length]
      omega

/-- What is held and sent of a piece, or nothing if the buffer overflows. -/
def Held.next (held : Held) (piece : PyText) : Option (Held × PyText) :=
  if piece.getLast? = some 92 then some (slash, unescape (held.text ++ piece.dropLast))
  else
    match held with
    | nothing => some (nothing, unescape piece)
    | slash => if piece = [110] then some (breaks 0, []) else some (nothing, unescape (92 :: piece))
    | breaks more =>
      if piece = lineEscape then if more < 127 then some (breaks (more + 1), []) else none
      else if more = 0 then some (nothing, unescape (lineEscape ++ piece))
      -- of more than two escapes two are left
      else some (nothing, unescape (10 :: 10 :: piece))

/-- The chunk of a reasoning, if there is any. -/
def reasoningChunks (calls : RelayCalls) (reasoning : PyText) : List Relayed :=
  if reasoning = [] then []
  else [.chunk (chunkOf calls.toBuilderCalls { calls.base with reasoningContent := .str reasoning })]

section Escapes

variable {calls : RelayCalls} {state : RelayState}

theorem relayReasoning_runs {reasoning : PyText} (some_ : reasoning ≠ []) :
    relayReasoning calls (.str reasoning) state
      = (.ok (), { state with sent := state.sent ++ reasoningChunks calls reasoning }) := by
  rw [reasoningChunks, if_neg some_]
  rfl

theorem relayIf_runs (reasoning : PyText) : relayIf (relayReasoning calls) reasoning state
    = (.ok (), { state with sent := state.sent ++ reasoningChunks calls reasoning }) := by
  cases reasoning with
  | nil =>
    show (Except.ok (), state) = (Except.ok (), { state with sent := state.sent ++ [] })
    rw [List.append_nil]
  | cons letter words => exact relayReasoning_runs (List.cons_ne_nil letter words)

theorem endsSlash_iff (text : PyText) :
    (Utf8.points "\\").isSuffixOf text = true ↔ text.getLast? = some 92 := by
  rw [List.isSuffixOf_iff_suffix]
  constructor
  · rintro ⟨front, rfl⟩
    exact List.getLast?_concat
  · intro last
    obtain ⟨front, rfl⟩ := List.getLast?_eq_some_iff.mp last
    exact List.suffix_append _ _

theorem unescape_ne_nil {text : PyText} (some_ : text ≠ []) : unescape text ≠ [] :=
  PyText.replace_ne_nil _ (by decide) some_

/-- An escape that is held, where the buffer has room. -/
theorem keepEscape_runs {addition : String} {buffered added : Bytes}
    (isBuffered : Utf8.encodePoints state.enterBuffer = some buffered)
    (encodes : Utf8.encodePoints (Utf8.points addition) = some added)
    (room : buffered.length + added.length ≤ 256) : keepEscape addition state
      = (.ok (), { state with enterBuffer := state.enterBuffer ++ Utf8.points addition }) := by
  rw [keepEscape, get_bind, boundedTextConcat, isBuffered, encodes]
  dsimp only
  rw [if_neg (not_lt.mpr room)]
  rfl

/-- A piece that is sent with what is held. -/
theorem relayEscaped_flushes {piece whole : PyText} (some_ : piece ≠ [])
    (noSlash : piece.getLast? ≠ some 92)
    (noBreak : ¬ ((Utf8.points "\\").isSuffixOf state.enterBuffer && piece == Utf8.points "n") = true)
    (noEscape : ¬ ((Utf8.points "\\n").isSuffixOf state.enterBuffer && piece == Utf8.points "\\n") = true)
    (isWhole : (if (Utf8.points "\\n\\n").isSuffixOf state.enterBuffer then Utf8.points "\n\n" ++ piece
      else state.enterBuffer ++ piece) = whole) :
    relayEscaped calls piece state = (.ok (), { state with
      enterBuffer := [], sent := state.sent ++ reasoningChunks calls (unescape whole) }) := by
  rw [relayEscaped, get_bind]
  dsimp only
  rw [if_neg (mt (endsSlash_iff piece).mp noSlash), if_neg noBreak, if_neg noEscape, isWhole]
  have nonempty : whole ≠ [] := by
    rw [← isWhole]
    split <;> exact List.append_ne_nil_of_right_ne_nil _ some_
  exact relayReasoning_runs (unescape_ne_nil nonempty)

/-- **What is sent and held of a piece.** -/
theorem relayEscaped_runs {held : Held} {piece : PyText} (isHeld : state.enterBuffer = held.text)
    (some_ : piece ≠ []) :
    match held.next piece with
    | some (after, reasoning) => relayEscaped calls piece state = (.ok (), { state with
        enterBuffer := after.text, sent := state.sent ++ reasoningChunks calls reasoning })
    | none => ∃ error, relayEscaped calls piece state = (.error error, state) := by
  by_cases slash : piece.getLast? = some 92
  · rw [Held.next.eq_def, if_pos slash]
    dsimp only
    rw [relayEscaped, get_bind]
    dsimp only
    rw [if_pos ((endsSlash_iff piece).mpr slash), isHeld]
    exact relayIf_runs _
  rw [Held.next.eq_def, if_neg slash]
  cases held with
  | nothing =>
    refine relayEscaped_flushes some_ slash ?_ ?_ ?_ <;> rw [isHeld]
    · exact Bool.false_ne_true
    · exact Bool.false_ne_true
    · rfl
  | slash =>
    dsimp only
    by_cases isN : piece = [110]
    · rw [if_pos isN, isN]
      dsimp only
      have runs := @keepEscape_runs state "n" [92] [110] (by rw [isHeld]; decide) (by decide) (by decide)
      rw [relayEscaped, get_bind, isHeld]
      dsimp only
      rw [if_neg (by decide), if_pos (by decide), runs, isHeld]
      show _ = (Except.ok (), { state with enterBuffer := [92, 110], sent := state.sent ++ [] })
      rw [List.append_nil]
      rfl
    · rw [if_neg isN]
      refine relayEscaped_flushes some_ slash ?_ ?_ ?_ <;> rw [isHeld]
      · rw [Bool.and_eq_true, beq_iff_eq]
        exact fun both => isN both.2
      · exact Bool.false_ne_true
      · rfl
  | breaks more =>
    dsimp only
    obtain ⟨front, ends⟩ := breaks_ends more
    have noSlash : ¬ ((Utf8.points "\\").isSuffixOf state.enterBuffer && piece == Utf8.points "n")
        = true := by
      rw [Bool.and_eq_true, endsSlash_iff, isHeld, ends]
      rintro ⟨last, -⟩
      simp [lineEscape, Utf8.points] at last
    by_cases isEscape : piece = lineEscape
    · obtain ⟨bytes, encodes, length⟩ := breaks_encodes more
      rw [← isHeld] at encodes
      have keeps : relayEscaped calls piece state = keepEscape "\\n" state := by
        rw [relayEscaped, get_bind]
        dsimp only
        rw [if_neg (mt (endsSlash_iff piece).mp slash), if_neg noSlash, if_pos]
        rw [Bool.and_eq_true, beq_iff_eq, List.isSuffixOf_iff_suffix, isHeld, ends]
        exact ⟨List.suffix_append _ _, isEscape⟩
      rw [if_pos isEscape, keeps]
      by_cases room : more < 127
      · rw [if_pos room]
        dsimp only
        rw [keepEscape_runs encodes encodes_escape (by rw [length]; simp; omega), isHeld, breaks_text]
        show _ = (Except.ok (), { state with
          enterBuffer := (Held.breaks more).text ++ lineEscape, sent := state.sent ++ [] })
        rw [List.append_nil]
        rfl
      · rw [if_neg room]
        refine keepEscape_raises encodes_escape rfl fun buffered isBuffered => ?_
        rw [encodes] at isBuffered
        cases isBuffered
        rw [length]
        show 256 < 2 * (more + 1) + 2
        omega
    · rw [if_neg isEscape]
      have noEscape : ¬ ((Utf8.points "\\n").isSuffixOf state.enterBuffer && piece == Utf8.points "\\n")
          = true := by
        rw [Bool.and_eq_true, beq_iff_eq]
        exact fun both => isEscape both.2
      cases more with
      | zero =>
        refine relayEscaped_flushes some_ slash noSlash noEscape ?_
        rw [isHeld]
        rfl
      | succ more =>
        rw [if_neg (Nat.succ_ne_zero more)]
        refine relayEscaped_flushes some_ slash noSlash noEscape ?_
        obtain ⟨front, ends⟩ := breaks_ends more
        rw [isHeld, breaks_text, ends, if_pos]
        · rfl
        · rw [List.isSuffixOf_iff_suffix, List.append_assoc]
          exact List.suffix_append front _

end Escapes

/-! ### What is sent of the pieces -/

/-- The reasoning that is sent of pieces. -/
def sentOf : Held → List PyText → PyText
  | _, [] => []
  | held, piece :: pieces =>
    match held.next piece with
    | some (after, reasoning) => reasoning ++ sentOf after pieces
    | none => []

/-- **The pieces are unfolded whole**: in the end nothing is held, no more than two escapes are held
when a piece comes that does not end in a backslash, and never more than 128. -/
def Unfolds : Held → List PyText → Prop
  | held, [] => held = .nothing
  | held, piece :: pieces =>
    if piece.getLast? = some 92 then Unfolds .slash pieces
    else
      match held with
      | .nothing => Unfolds .nothing pieces
      | .slash => Unfolds (if piece = [110] then .breaks 0 else .nothing) pieces
      | .breaks more =>
        if piece = lineEscape then more < 127 ∧ Unfolds (.breaks (more + 1)) pieces
        else more ≤ 1 ∧ Unfolds .nothing pieces

/-- Held escapes are line breaks. -/
theorem unescape_breaks (text : PyText) :
    ∀ more, unescape ((Held.breaks more).text ++ text) = List.replicate (more + 1) 10 ++ unescape text
  | 0 => rfl
  | more + 1 => by
    show unescape (92 :: 110 :: ((Held.breaks more).text ++ text)) = _
    rw [unescape_escape, unescape_breaks text more]
    rfl

theorem unescape_lines (text : PyText) : unescape (10 :: 10 :: text) = 10 :: 10 :: unescape text := by
  rw [unescape_cons (by simp), unescape_cons (by simp)]

/-- **What is sent of the pieces** is no longer than the unfolded text, and the text itself if the
pieces are unfolded whole. -/
structure SentWhole (held : Held) (pieces : List PyText) : Prop where
  shorter : (sentOf held pieces).length ≤ (unescape (held.text ++ pieces.flatten)).length
  unfolds : (unescape (held.text ++ pieces.flatten)).length ≤ (sentOf held pieces).length →
    Unfolds held pieces
  whole : Unfolds held pieces → sentOf held pieces = unescape (held.text ++ pieces.flatten)

/-- A piece of which the unfolded text is sent. -/
theorem SentWhole.cons {held after : Held} {piece reasoning : PyText} {pieces : List PyText}
    (next : held.next piece = some (after, reasoning))
    (unfolds : Unfolds held (piece :: pieces) ↔ Unfolds after pieces)
    (splits : unescape (held.text ++ (piece ++ pieces.flatten))
      = reasoning ++ unescape (after.text ++ pieces.flatten))
    (later : SentWhole after pieces) : SentWhole held (piece :: pieces) := by
  have sent : sentOf held (piece :: pieces) = reasoning ++ sentOf after pieces := by
    rw [sentOf, next]
  have shorter := later.shorter
  refine ⟨?_, ?_, ?_⟩ <;> rw [sent, List.flatten_cons, splits]
  · simp only [List.length_append]
    omega
  · intro enough
    simp only [List.length_append] at enough
    exact unfolds.mpr (later.unfolds (by omega))
  · intro whole
    rw [later.whole (unfolds.mp whole)]

/-- A piece behind which nothing is sent as it should be. -/
theorem SentWhole.of_shorter {held : Held} {piece : PyText} {pieces : List PyText}
    (loses : ¬ Unfolds held (piece :: pieces))
    (shorter : (sentOf held (piece :: pieces)).length
      < (unescape (held.text ++ (piece ++ pieces.flatten))).length) : SentWhole held (piece :: pieces) where
  shorter := by
    rw [List.flatten_cons]
    exact shorter.le
  unfolds enough := by
    rw [List.flatten_cons] at enough
    omega
  whole unfolds := absurd unfolds loses

/-- At the end a held text is lost. -/
theorem sentOf_whole_nil : ∀ held : Held, SentWhole held []
  | .nothing => ⟨le_rfl, fun _ => rfl, fun _ => rfl⟩
  | .slash => by
    refine ⟨Nat.zero_le _, fun enough => ?_, fun whole => ?_⟩
    · exact absurd enough (by decide)
    · cases whole
  | .breaks more => by
    refine ⟨Nat.zero_le _, fun enough => ?_, fun whole => ?_⟩
    · rw [List.flatten_nil, unescape_breaks, unescape_nil, List.append_nil, List.length_replicate] at enough
      exact absurd enough (Nat.not_succ_le_zero more)
    · cases whole

theorem sentOf_whole_breaks {more : ℕ} {piece : PyText} {pieces : List PyText}
    (slash : piece.getLast? ≠ some 92) (later : ∀ after, SentWhole after pieces) :
    SentWhole (.breaks more) (piece :: pieces) := by
  have parts : unescape (piece ++ pieces.flatten) = unescape piece ++ unescape pieces.flatten :=
    unescape_append fun last => absurd last slash
  by_cases isEscape : piece = lineEscape
  · by_cases room : more < 127
    · refine @SentWhole.cons _ (.breaks (more + 1)) _ [] _ ?_ ?_ ?_ (later _)
      · rw [Held.next, if_neg slash]
        rw [if_pos isEscape, if_pos room]
      · rw [Unfolds, if_neg slash]
        rw [if_pos isEscape]
        exact and_iff_right room
      · rw [isEscape, breaks_text, List.append_assoc]
        rfl
    · refine .of_shorter ?_ ?_
      · rw [Unfolds, if_neg slash]
        rw [if_pos isEscape]
        exact fun unfolds => room unfolds.1
      · have none_ : (Held.breaks more).next piece = none := by
          rw [Held.next, if_neg slash]
          rw [if_pos isEscape, if_neg room]
        rw [sentOf, none_, unescape_breaks]
        simp
  have unfolds : Unfolds (.breaks more) (piece :: pieces) ↔ more ≤ 1 ∧ Unfolds .nothing pieces := by
    rw [Unfolds, if_neg slash]
    rw [if_neg isEscape]
  have next : (Held.breaks more).next piece = some (.nothing,
      if more = 0 then unescape (lineEscape ++ piece) else unescape (10 :: 10 :: piece)) := by
    rw [Held.next, if_neg slash]
    rw [if_neg isEscape]
    split <;> rfl
  have splits : unescape ((Held.breaks more).text ++ (piece ++ pieces.flatten))
      = List.replicate (more + 1) 10 ++ (unescape piece ++ unescape
        (Held.nothing.text ++ pieces.flatten)) := by
    rw [unescape_breaks, parts]
    rfl
  match more with
  | 0 =>
    refine .cons next ?_ ?_ (later .nothing)
    · rw [unfolds]
      exact and_iff_right (Nat.zero_le 1)
    · rw [splits]
      rfl
  | 1 =>
    refine .cons next ?_ ?_ (later .nothing)
    · rw [unfolds]
      exact and_iff_right le_rfl
    · rw [splits, if_neg one_ne_zero, unescape_lines]
      rfl
  | more + 2 =>
    refine .of_shorter (fun whole => by have := (unfolds.mp whole).1; omega) ?_
    have shorter := (later .nothing).shorter
    rw [splits, sentOf, next, if_neg (Nat.succ_ne_zero _), unescape_lines]
    simp only [List.length_append, List.length_cons, List.length_replicate]
    omega

theorem sentOf_whole : ∀ {pieces : List PyText} {held : Held}, (∀ piece ∈ pieces, piece ≠ []) →
    SentWhole held pieces
  | [], held, _ => sentOf_whole_nil held
  | piece :: pieces, held, some_ => by
    have later (after : Held) : SentWhole after pieces :=
      sentOf_whole fun other among => some_ other (List.mem_cons_of_mem piece among)
    by_cases slash : piece.getLast? = some 92
    · obtain ⟨front, rfl⟩ := List.getLast?_eq_some_iff.mp slash
      refine @SentWhole.cons _ .slash _ (unescape (held.text ++ front)) _ ?_ ?_ ?_ (later .slash)
      · rw [Held.next.eq_def, if_pos slash, List.dropLast_concat]
      · rw [Unfolds.eq_def]
        dsimp only
        rw [if_pos slash]
      · rw [List.append_assoc, ← List.append_assoc]
        exact unescape_append fun _ => by simp
    cases held with
    | nothing =>
      refine @SentWhole.cons _ .nothing _ (unescape piece) _ ?_ ?_ ?_ (later .nothing)
      · rw [Held.next, if_neg slash]
      · rw [Unfolds, if_neg slash]
      · exact unescape_append fun last => absurd last slash
    | slash =>
      by_cases isN : piece = [110]
      · refine @SentWhole.cons _ (.breaks 0) _ [] _ ?_ ?_ ?_ (later _)
        · rw [isN]
          rfl
        · rw [Unfolds, if_neg slash]
          rw [if_pos isN]
        · rw [isN]
          rfl
      · have last : (92 :: piece).getLast? ≠ some 92 := by
          cases piece with
          | nil => exact absurd rfl (some_ [] List.mem_cons_self)
          | cons letter words => rwa [List.getLast?_cons_cons]
        refine @SentWhole.cons _ .nothing _ (unescape (92 :: piece)) _ ?_ ?_ ?_ (later .nothing)
        · rw [Held.next, if_neg slash]
          rw [if_neg isN]
        · rw [Unfolds, if_neg slash]
          rw [if_neg isN]
        · exact unescape_append fun isSlash => absurd isSlash last
    | breaks more => exact sentOf_whole_breaks slash later

/-- **The whole unfolded text is sent** just when the pieces are unfolded whole. -/
theorem sentOf_eq_iff {pieces : List PyText} (some_ : ∀ piece ∈ pieces, piece ≠ []) :
    sentOf .nothing pieces = unescape pieces.flatten ↔ Unfolds .nothing pieces := by
  have sent := @sentOf_whole pieces .nothing some_
  exact ⟨fun same => sent.unfolds (by rw [same]; rfl), sent.whole⟩

/-! ### The stream -/

/-- The reasoning of the chunks among what was sent. -/
def sentReasoning (sent : List Relayed) : PyText :=
  (relayedChunks sent).flatMap (Client.textAt · ["choices", 0, "delta", "reasoning_content"])

theorem sentReasoning_append (first second : List Relayed) :
    sentReasoning (first ++ second) = sentReasoning first ++ sentReasoning second := by
  rw [sentReasoning, relayedChunks_append, List.flatMap_append]
  rfl

theorem sentReasoning_chunks (calls : RelayCalls) (reasoning : PyText) :
    sentReasoning (reasoningChunks calls reasoning) = reasoning := by
  cases reasoning with
  | nil => rfl
  | cons letter words => exact List.append_nil _

/-- **A chunk with a piece of a reasoning**, and no content. -/
structure IsPiece (chunk : PyData) : Prop extends IsChunk chunk where
  noContent : contentOf chunk = []
  nonempty : reasoningOf chunk ≠ []

section Stream

variable {calls : RelayCalls} {state : RelayState} {chunk : PyData}

theorem quotedThinking_idle (outside : state.isThinking = false) :
    quotedThinking calls (.str []) state = (.ok false, state) := by
  have idle : ({ state with isThinking := state.isThinking || opensQuote [] } : RelayState) = state := by
    rw [show opensQuote [] = false from by decide, Bool.or_false]
  have stays : ({ state with isThinking := state.isThinking && (!has "\n\n" (quoted []) || state.arkTag) }
      : RelayState) = state := by
    rw [outside, Bool.false_and, ← outside]
  rw [quotedThinking, bind_of_ok (openQuote_runs []), idle, bind_of_ok (closeQuote_runs _), stays, get_bind,
    outside]
  rfl

theorem transformEvent_piece (isPiece : IsPiece chunk) (outside : state.isThinking = false) : ∃ seen,
    transformEvent calls (.data chunk) state
      = relayEscaped calls (reasoningOf chunk) { state with semanticTerminalSeen := seen } := by
  obtain ⟨seen, runs⟩ := @transformEvent_chunk calls state chunk isPiece.toIsChunk
  refine ⟨seen, runs.trans ?_⟩
  have reads : Reads calls (withId calls chunk) := isPiece.toIsChunk.withId.reads
  have outside' : ({ state with semanticTerminalSeen := seen } : RelayState).isThinking = false := outside
  have noTags : ¬ InTags { state with semanticTerminalSeen := seen } [] := by
    rintro (tag | tag | ⟨thinking, -⟩)
    · exact absurd tag (by decide)
    · exact absurd tag (by decide)
    · exact absurd thinking (by rw [outside']; decide)
  rw [transformContent, reads.content, contentOf_withId, isPiece.noContent, bind_of_ok
    (thinkTags_passes noTags)]
  show (quotedThinking calls (.str []) >>= _) _ = _
  rw [bind_of_ok (quotedThinking_idle outside'), if_neg Bool.false_ne_true,
    transformBehind_reasoning reads (by rw [reasoningOf_withId]; exact isPiece.nonempty),
      reasoningOf_withId]

/-- The event that ends the stream. -/
def doneEvent : UpstreamEvent := .data (lit "[DONE]")

/-- **What is sent of the pieces of a reasoning.** -/
theorem transformEvents_pieces : ∀ {chunks : List PyData} {state : RelayState} {held : Held},
    (∀ chunk ∈ chunks, IsPiece chunk) → state.isThinking = false → state.completedNormally = false →
      state.inputTokens = 0 → state.enterBuffer = held.text →
      ∃ outcome after, transformEvents calls (chunks.map .data ++ [doneEvent]) state = (outcome, after) ∧
        after.inputTokens = 0 ∧
        sentReasoning after.sent = sentReasoning state.sent ++ sentOf held (chunks.map reasoningOf)
  | [], state, held, _, _, _, noTokens, _ =>
    ⟨_, _, rfl, noTokens, (List.append_nil _).symm⟩
  | chunk :: chunks, state, held, arePieces, outside, isOpen, noTokens, isHeld => by
    have isPiece := arePieces chunk List.mem_cons_self
    obtain ⟨seen, piece⟩ := @transformEvent_piece calls state chunk isPiece outside
    have runs := @relayEscaped_runs calls { state with semanticTerminalSeen := seen } held _ isHeld
      isPiece.nonempty
    rw [List.map_cons, List.map_cons, List.cons_append, transformEvents, sentOf]
    cases next : held.next (reasoningOf chunk) with
    | none =>
      rw [next] at runs
      obtain ⟨error, raises⟩ := runs
      refine ⟨.error error, { state with semanticTerminalSeen := seen }, ?_, noTokens,
        (List.append_nil _).symm⟩
      rw [Raise.bind_apply, piece, raises]
    | some taken =>
      obtain ⟨after, reasoning⟩ := taken
      rw [next] at runs
      dsimp only at runs
      obtain ⟨outcome, last, later, tokens, sent⟩ := @transformEvents_pieces chunks
        { state with
          semanticTerminalSeen := seen, enterBuffer := after.text,
          sent := state.sent ++ reasoningChunks calls reasoning } after
        (fun other among => arePieces other (List.mem_cons_of_mem chunk among)) outside isOpen noTokens rfl
      refine ⟨outcome, last, ?_, tokens, ?_⟩
      · rw [bind_of_ok (piece.trans runs), get_bind]
        exact (congrFun (if_neg (Bool.eq_false_iff.mp isOpen)) _).trans later
      · rw [sent]
        show sentReasoning (state.sent ++ reasoningChunks calls reasoning) ++ _ = _
        rw [sentReasoning_append, sentReasoning_chunks, List.append_assoc]

end Stream

/-- The reasoning that the stream sends of chunks that `[DONE]` ends. -/
def relayedReasoning (calls : RelayCalls) (chunks : List PyData) : PyText :=
  sentReasoning (fetchGptResponseStream calls (chunks.map .data ++ [doneEvent]) {}).2.sent

theorem relayedReasoning_eq {calls : RelayCalls} {chunks : List PyData}
    (arePieces : ∀ chunk ∈ chunks, IsPiece chunk) :
    relayedReasoning calls chunks = sentOf .nothing (chunks.map reasoningOf) := by
  obtain ⟨outcome, after, runs, noTokens, sent⟩ := @transformEvents_pieces calls chunks {} .nothing
    arePieces rfl rfl rfl rfl
  refine .trans ?_ sent
  rw [relayedReasoning, fetchGptResponseStream, Raise.bind_apply, runs]
  cases outcome with
  | error error => rfl
  | ok done =>
    dsimp only
    rw [get_bind, noTokens]
    split_ifs with endless counted counted
    · rfl
    · rfl
    · exact absurd counted Bool.false_ne_true
    · show sentReasoning (after.sent ++ [.done]) = _
      rw [sentReasoning_append]
      exact List.append_nil _

/-- **The reasoning that a client has is the whole text with its escapes unfolded** just when its
pieces are unfolded whole. -/
theorem reasoning_unfolded_iff (calls : RelayCalls) (chunks : List PyData)
    (arePieces : ∀ chunk ∈ chunks, IsPiece chunk) :
    relayedReasoning calls chunks = unescape (chunks.flatMap reasoningOf) ↔
      Unfolds .nothing (chunks.map reasoningOf) := by
  rw [relayedReasoning_eq arePieces, List.flatMap_def]
  refine sentOf_eq_iff fun piece among => ?_
  obtain ⟨chunk, isAmong, rfl⟩ := List.mem_map.mp among
  exact (arePieces chunk isAmong).nonempty

/-! An escape in two pieces is unfolded, and a backslash at the end is lost. -/

/-- The chunk of a piece. -/
def pieceChunk (piece : String) : PyData :=
  .dict [("choices", .list [.dict [("delta", .dict [("reasoning", lit piece)])]])]

theorem pieceChunk_isPiece {piece : String} (some_ : Utf8.points piece ≠ []) : IsPiece
    (pieceChunk piece) where
  isDict := ⟨_, rfl⟩
  noType := rfl
  noMessage := rfl
  noImages := rfl
  content := ⟨[], .inr ⟨rfl, rfl⟩⟩
  reasoning := .inl ⟨Utf8.points piece, .inl rfl⟩
  noContent := rfl
  nonempty := some_

theorem reasoning_unfolded_iff_escape : relayedReasoning plainRelay
    [pieceChunk "a\\", pieceChunk "n", pieceChunk "b"]
    = Utf8.points "a\nb" := by
  have arePieces : ∀ chunk ∈ [pieceChunk "a\\", pieceChunk "n", pieceChunk "b"], IsPiece chunk := by
    rintro chunk (_ | ⟨_, _ | ⟨_, _ | ⟨_, none_⟩⟩⟩)
    · exact pieceChunk_isPiece (by decide)
    · exact pieceChunk_isPiece (by decide)
    · exact pieceChunk_isPiece (by decide)
    · cases none_
  exact (reasoning_unfolded_iff plainRelay _ arePieces).mpr ⟨Nat.zero_le 1, rfl⟩

theorem last_backslash_lost : IsPiece (pieceChunk "\\") ∧
    relayedReasoning plainRelay [pieceChunk "\\"] ≠ unescape ([pieceChunk "\\"].flatMap reasoningOf) := by
  have isPiece : IsPiece (pieceChunk "\\") := pieceChunk_isPiece (by decide)
  refine ⟨isPiece, ?_⟩
  rw [relayedReasoning_eq fun chunk among => by rwa [List.mem_singleton.mp among]]
  decide

end UniApi.Providers.OpenaiStream
