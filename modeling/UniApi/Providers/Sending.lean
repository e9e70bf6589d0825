/-
**Streams of chat completion chunks.**

A stream goes through the events of an upstream response; the body of its loop sends chunks, changes what
the loop keeps and may leave the loop. `Collects` says what a client has of the chunks of events after
which the loop goes on as before; events that send nothing may stand between them
(`Collects.continues`).
-/

import UniApi.Lib.Raise
import UniApi.Streaming.ChatEvents

namespace UniApi.Providers

open UniApi.Lib UniApi.Streaming
open UniApi.Lib.PyData (lit)
open UniApi.Streaming.Client (Parts)

/-! ### Sending -/

/-- What a stream raises. -/
inductive StreamError where
  /-- `SSEProtocolError`. -/
  | protocol (message : String)
  /-- `IndexError`. -/
  | index
  /-- `GeminiThoughtSignatureTooLarge`. -/
  | signatureTooLarge
  /-- `UnicodeEncodeError`. -/
  | unicode

/-- What a stream sends: the payload of a chunk, an object without an event around it, or `[DONE]`. -/
inductive Sent where
  | chunk (payload : PyData)
  | body (payload : PyData)
  | done

/-- A call of a stream, with what the stream has sent. -/
abbrev Sending := Raise StreamError (List Sent)

/-- `yield`. -/
def send (item : Sent) : Sending Unit := Raise.modify (· ++ [item])

/-- `yield await generate_sse_response(...)`. -/
def sendSse (calls : BuilderCalls) (arguments : BuilderArguments) (stop : PyData := .none) : Sending Unit :=
  match generateSseResponse calls arguments stop with
  | some payload => send (.chunk payload)
  | none => Raise.throw .index

/-- `if condition: yield await generate_sse_response(...)`. -/
def sendSseIf (condition : Bool) (calls : BuilderCalls) (arguments : BuilderArguments)
    (stop : PyData := .none) : Sending Unit :=
  if condition then sendSse calls arguments stop else return ()

/-- What the streams call. -/
structure StreamCalls extends BuilderCalls where
  digit : CodePoint → Option ℕ
  keepsFalsy : Bool
  timestamp : ℤ
  model : PyData

namespace StreamCalls

variable (calls : StreamCalls)

/-- `safe_get`. -/
def safeGet (data : PyData) (keys : List PyKey) (default : PyData) : PyData :=
  data.safeGet calls.keepsFalsy keys default

/-- `_coerce_token_count`. -/
def coerce (value : PyData) : ℤ := value.coerceTokenCount calls.digit

/-- The arguments of a builder with the timestamp and the model of the stream. -/
def base : BuilderArguments := { timestamp := calls.timestamp, model := calls.model }

end StreamCalls

/-! ### Paths and counts -/

section Paths

variable {calls : StreamCalls}

theorem coerce_nat (count : ℕ) : calls.coerce (.int count) = min PyData.maxTokenCount count := by
  show min PyData.maxTokenCount (max 0 (count : ℤ)) = _
  rw [max_eq_right (Int.natCast_nonneg count)]

theorem coerce_nonneg (value : PyData) : 0 ≤ calls.coerce value := by
  show 0 ≤ min PyData.maxTokenCount (max 0 _)
  exact le_min (by decide) (le_max_left 0 _)

theorem coerce_eq_zero (count : ℕ) : calls.coerce (.int count) = 0 ↔ count = 0 := by
  rw [coerce_nat]
  have positive : 0 < PyData.maxTokenCount := by decide
  omega

theorem coerce_coerce (value : PyData) : calls.coerce (.int (calls.coerce value)) = calls.coerce value := by
  have small : calls.coerce value ≤ PyData.maxTokenCount := min_le_left _ _
  show min PyData.maxTokenCount (max 0 (calls.coerce value)) = _
  rw [max_eq_right (coerce_nonneg value), min_eq_right small]

theorem safeGet_count {data : PyData} {keys : List PyKey} {count : ℤ}
    (found : data.follow keys = some (.int count)) : calls.safeGet data keys (.int 0) = .int count := by
  show PyData.safeGet _ _ _ _ = _
  rw [PyData.safeGet, found]
  by_cases zero : count = 0
  · subst zero
    exact ite_self _
  · exact if_pos (by rw [(PyData.truthy_int count).mpr zero, Bool.true_or])

/-- The text at a path of an event, where a path that leads nowhere has no letters. -/
def Leads (resp : PyData) (keys : List PyKey) (words : PyText) : Prop :=
  resp.follow keys = some (.str words) ∨ resp.follow keys = none ∧ words = []

theorem Leads.safeGet {resp : PyData} {keys : List PyKey} {words : PyText} (leads : Leads resp keys words) :
    calls.safeGet resp keys (lit "") = .str words := by
  rcases leads with found | ⟨lost, rfl⟩
  · cases words with
    | nil =>
      show PyData.safeGet _ _ _ _ = _
      rw [PyData.safeGet, found]
      exact ite_self _
    | cons letter words => exact PyData.safeGet_of_truthy found rfl
  · exact PyData.safeGet_of_none lost

theorem Leads.text {resp : PyData} {keys : List PyKey} {words : PyText} (leads : Leads resp keys words) :
    (calls.safeGet resp keys .none).text = words := by
  rcases leads with found | ⟨lost, rfl⟩
  · exact PyData.text_safeGet found .none rfl
  · rw [StreamCalls.safeGet, PyData.safeGet_of_none lost]
    rfl

/-- An object at a path, as `safe_get` gives it with the default `None`. -/
def givenDict (calls : StreamCalls) (members : List (String × PyData)) : PyData :=
  if calls.keepsFalsy ∨ members ≠ [] then .dict members else .none

theorem safeGet_dict {data : PyData} {keys : List PyKey} {members : List (String × PyData)}
    (found : data.follow keys = some (.dict members)) :
    calls.safeGet data keys .none = givenDict calls members := by
  show PyData.safeGet _ _ _ _ = _
  rw [PyData.safeGet, found, givenDict]
  cases members with
  | nil => cases calls.keepsFalsy <;> simp [PyData.truthy]
  | cons => simp [PyData.truthy]

/-- Calls with the decoder of the library, a `safe_get` that keeps what it finds, and ASCII digits. -/
noncomputable def plainCalls : StreamCalls where
  buildOpenaiUsage := usageByName
  randomStr _ _ := Utf8.points "a"
  json := .standard
  digit point := if 48 ≤ point ∧ point ≤ 57 then some (point - 48) else none
  keepsFalsy := true
  timestamp := 0
  model := lit "claude"

end Paths

/-! ### What was sent -/

/-- The chunks among what was sent. -/
def chunksOf (sent : List Sent) : List PyData := sent.filterMap fun
  | .chunk payload => some payload
  | _ => none

theorem chunksOf_append (first second : List Sent) :
    chunksOf (first ++ second) = chunksOf first ++ chunksOf second := List.filterMap_append

/-- What a client has of what was sent. -/
def partsOf (sent : List Sent) : Parts := Client.parts (chunksOf sent)

theorem partsOf_append (first second : List Sent) :
    partsOf (first ++ second) = partsOf first ++ partsOf second := by
  rw [partsOf, chunksOf_append, Client.parts_append]
  rfl

/-- The chunk of these arguments. -/
def chunkOf (calls : BuilderCalls) (arguments : BuilderArguments) : PyData :=
  chunkData calls arguments
    (if arguments.counts.totalTokens ≠ 0 then []
      else [chunkChoice (deltaOf arguments)
        (if arguments.content.truthy || arguments.reasoningContent.truthy then .none else lit "stop")])

theorem sendSse_apply (calls : BuilderCalls) (arguments : BuilderArguments) (sent : List Sent) :
    sendSse calls arguments .none sent = (.ok (), sent ++ [.chunk (chunkOf calls arguments)]) := rfl

theorem partsOf_chunk (calls : BuilderCalls) (arguments : BuilderArguments)
    (none_ : arguments.counts.totalTokens = 0) :
    partsOf [.chunk (chunkOf calls arguments)] = Client.deltaParts (deltaOf arguments) := by
  rw [chunkOf, if_neg (not_not.mpr none_)]
  exact Client.parts_choice calls arguments _ _ none_

theorem partsOf_usage (calls : BuilderCalls) (arguments : BuilderArguments)
    (counted : arguments.counts.totalTokens ≠ 0)
    (isUsage : calls.buildOpenaiUsage arguments.counts ≠ .none) :
    partsOf [.chunk (chunkOf calls arguments)]
      = { usages := [calls.buildOpenaiUsage arguments.counts] } := by
  rw [chunkOf, if_pos counted]
  exact Client.parts_usage calls arguments counted isUsage

/-- **The call returns this, and what it sent adds this for a client.** -/
def Returns {α : Type} (call : Sending α) (value : α) (added : Parts) : Prop :=
  ∀ sent, ∃ items, call sent = (.ok value, sent ++ items) ∧ partsOf items = added

namespace Returns

variable {α β : Type} {added more : Parts}

theorem pure (value : α) : Returns (Pure.pure value) value {} :=
  fun sent => ⟨[], by rw [List.append_nil]; rfl, rfl⟩

theorem bind {call : Sending α} {next : α → Sending β} {value : α} {result : β}
    (first : Returns call value added) (second : Returns (next value) result more) :
    Returns (call >>= next) result (added ++ more) := by
  intro sent
  obtain ⟨items, runs, parts⟩ := first sent
  obtain ⟨items', runs', parts'⟩ := second (sent ++ items)
  refine ⟨items ++ items', ?_, ?_⟩
  · rw [Raise.bind_apply, runs]
    show next value (sent ++ items) = _
    rw [runs', List.append_assoc]
  · rw [partsOf_append, parts, parts']

theorem bind_pure {call : Sending α} {value : α} (first : Returns call value added) (result : β) :
    Returns (call >>= fun _ => Pure.pure result) result added := by
  have both := @Returns.bind α β added {} call (fun _ => Pure.pure result) value result first
      (Returns.pure result)
  rwa [Parts.append_nil] at both

theorem send (item : Sent) : Returns (Providers.send item) () (partsOf [item]) := fun _ =>
    ⟨[item], rfl, rfl⟩

theorem sse (calls : BuilderCalls) (arguments : BuilderArguments)
    (none_ : arguments.counts.totalTokens = 0) :
    Returns (sendSse calls arguments .none) () (Client.deltaParts (deltaOf arguments)) := by
  intro sent
  exact ⟨_, sendSse_apply calls arguments sent, partsOf_chunk calls arguments none_⟩

theorem sseIf {condition : Bool} (calls : BuilderCalls) (arguments : BuilderArguments)
    (none_ : arguments.counts.totalTokens = 0)
    (adds : (if condition then Client.deltaParts (deltaOf arguments) else {}) = added) :
    Returns (sendSseIf condition calls arguments .none) () added := by
  subst adds
  cases condition with
  | true => exact sse calls arguments none_
  | false => exact pure ()

end Returns

/-- **Two answers are the same for a client**, as far as it looks at a call. -/
structure SameAnswer {α : Type} (view : ToolCall → α) (streamed whole : Answer) : Prop where
  content : streamed.content = whole.content
  reasoning : streamed.reasoning = whole.reasoning
  toolCalls : streamed.toolCalls.map view = whole.toolCalls.map view
  usage : streamed.usage = whole.usage

/-! ### Loops -/

section Loop

variable {σ ε : Type} (body : σ → ε → Sending (σ × Bool))

/-- `async for event in events: body`, where the body says whether it breaks. -/
def loop (state : σ) : List ε → Sending σ
  | [] => return state
  | event :: events => do
    let (after, breaks) ← body state event
    if breaks then return after else loop after events

/-- The loop goes through these events, and adds this for the client. -/
def Continues (state : σ) (events : List ε) (after : σ) (added : Parts) : Prop :=
  ∀ rest sent, ∃ items, loop body state (events ++ rest) sent = loop body after rest (sent ++ items) ∧
    partsOf items = added

variable {body}

theorem Continues.nil (state : σ) : Continues body state [] state {} :=
  fun _ sent => ⟨[], by rw [List.nil_append, List.append_nil], rfl⟩

theorem loop_of_break {state after : σ} {event : ε} {added : Parts}
    (adds : Returns (body state event) (after, true) added) (rest : List ε) (sent : List Sent) :
    ∃ items, loop body state (event :: rest) sent = (.ok after, sent ++ items) ∧ partsOf items = added := by
  obtain ⟨items, runs, parts⟩ := adds sent
  refine ⟨items, ?_, parts⟩
  rw [loop, Raise.bind_apply, runs]
  rfl

theorem Returns.continues {state after : σ} {event : ε} {added : Parts}
    (adds : Returns (body state event) (after, false) added) : Continues body state
      [event] after added := by
  intro rest sent
  obtain ⟨items, runs, parts⟩ := adds sent
  refine ⟨items, ?_, parts⟩
  rw [List.singleton_append, loop, Raise.bind_apply, runs]
  rfl

theorem Continues.append {state between after : σ} {first second : List ε} {added more : Parts}
    (adds : Continues body state first between added) (later : Continues body between second after more) :
    Continues body state (first ++ second) after (added ++ more) := by
  intro rest sent
  obtain ⟨items, runs, parts⟩ := adds (second ++ rest) sent
  obtain ⟨items', runs', parts'⟩ := later rest (sent ++ items)
  refine ⟨items ++ items', ?_, ?_⟩
  · rw [List.append_assoc, runs, runs', List.append_assoc]
  · rw [partsOf_append, parts, parts']

/-- Events that leave the state of the loop as it is, and what they add together. -/
inductive Collects (body : σ → ε → Sending (σ × Bool)) (state : σ) : List ε → Parts → Prop
  | nil : Collects body state [] {}
  | cons {event : ε} {events : List ε} {added more : Parts} :
    Returns (body state event) (state, false) added → Collects body state events more →
      Collects body state (event :: events) (added ++ more)

/-- **Events that the loop collects, and others between them that add nothing.** -/
theorem Collects.continues {state : σ} {active : ε → Bool}
    (idle : ∀ event, active event = false → Returns (body state event) (state, false) {}) :
    ∀ {events : List ε} {added : Parts}, Collects body state (events.filter active) added →
      Continues body state events state added
  | [], _, collects => by
    cases collects
    exact Continues.nil state
  | event :: _, _, collects => by
    cases isActive : active event with
    | false =>
      rw [List.filter_cons_of_neg (by rw [isActive]; exact Bool.false_ne_true)] at collects
      have later := (idle event isActive).continues.append (collects.continues idle)
      rwa [Parts.nil_append] at later
    | true =>
      rw [List.filter_cons_of_pos isActive] at collects
      cases collects with
      | cons adds others => exact adds.continues.append (others.continues idle)

/-- **A loop that leaves at an event behind the events that it collects.** -/
theorem Collects.leaves {state after : σ} {active : ε → Bool}
    (idle : ∀ event, active event = false → Returns (body state event) (state, false) {})
    {events before more : List ε} {last : ε} {added final : Parts}
    (sends : events.filter active = before ++ last :: more) (collects : Collects body state before added)
    (breaks : Returns (body state last) (after, true) final) (sent : List Sent) :
    ∃ items, loop body state events sent = (.ok after, sent ++ items) ∧ partsOf items = added ++ final := by
  obtain ⟨collected, others, rfl, before_, others_⟩ := List.filter_eq_append_iff.mp sends
  obtain ⟨between, behind, rfl, between_, -, -⟩ := List.filter_eq_cons_iff.mp others_
  have skips : between.filter active = [] :=
    List.filter_eq_nil_iff.mpr fun event among => between_ event among
  have goesOn := ((show Collects body state (collected.filter active) added by rwa
      [before_]).continues idle).append
    ((show Collects body state (between.filter active) {} by rw [skips]; exact .nil).continues idle)
  rw [Parts.append_nil] at goesOn
  obtain ⟨items, runs, parts⟩ := goesOn (last :: behind) sent
  obtain ⟨items', runs', parts'⟩ := loop_of_break breaks behind (sent ++ items)
  refine ⟨items ++ items', ?_, ?_⟩
  · rw [← List.append_assoc, runs, runs', List.append_assoc]
  · rw [partsOf_append, parts, parts']

theorem Collects.append {state : σ} {first second : List ε} {added more : Parts}
    (collects : Collects body state first added) (later : Collects body state second more) :
    Collects body state (first ++ second) (added ++ more) := by
  induction collects with
  | nil => rwa [Parts.nil_append]
  | cons adds _ others =>
    rw [List.cons_append, Parts.append_assoc]
    exact .cons adds others

end Loop

end UniApi.Providers
