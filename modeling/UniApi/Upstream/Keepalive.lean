/-
**`error_handling_wrapper`: the items of an upstream generator, with keepalives.**

A wrapper asks for the first item, for a keepalive interval at most. If the interval expires, the
stream that it returns gives keepalives, and carries the pending task over the intervals.

* `reads_plain`: without keepalives a stream gives the items and ends as its generator;
* `reads_keepalive`: with keepalives it gives the items, and ends in an exception;
* `keepalive_transparent_iff`: exactly when keepalives are transparent.
-/

import Mathlib.Data.List.Basic
import UniApi.Lib.Utf8

namespace UniApi.Upstream

open UniApi.Lib

/-! ### Generators -/

/-- How a generator ends: normally, or with an exception. -/
inductive Ending (ε : Type) where
  | normal
  | raised (error : ε)

/-- A generator of texts. Each item, and the end, comes after a number of keepalive intervals. -/
structure Generator (ε : Type) where
  items : List (Nat × Bytes)
  intervals : Nat
  ending : Ending ε

/-- A task for the next item: the intervals until it is done, and what it gives. -/
structure NextTask (ε : Type) where
  intervals : Nat
  result : Bytes ⊕ Ending ε

/-- `__anext__`. A generator that has ended is not resumed. -/
def Generator.anext {ε : Type} (generator : Generator ε) : NextTask ε × Generator ε :=
  match generator.items with
  | (intervals, item) :: rest => (⟨intervals, .inl item⟩, { generator with items := rest })
  | [] => (⟨generator.intervals, .inr generator.ending⟩, ⟨[], 0, .normal⟩)

/-- `wait_for_timeout`: the task that is still pending, or what it gave. -/
def waitForTimeout {ε : Type} (generator : Generator ε) (waitTask : Option (NextTask ε)) :
    (NextTask ε ⊕ (Bytes ⊕ Ending ε)) × Generator ε :=
  let (task, generator) := match waitTask with
    | some task => (task, generator)
    | none => generator.anext
  if task.intervals = 0 then (.inr task.result, generator)
  else (.inl { task with intervals := task.intervals - 1 }, generator)

/-! ### Streams -/

/-- What a stream gives: a keepalive, or a text of its generator. -/
inductive Output where
  | keepalive
  | text (item : Bytes)

/-- What ends a stream: what ends its generator, or the error of an asynchronous generator in which
StopAsyncIteration is raised. -/
inductive StreamEnding (ε : Type) where
  | ended (ending : Ending ε)
  | runtimeError

/-- Where `new_generator` is suspended. -/
inductive StreamState (ε : Type) where
  | first (item : Bytes)
  | plain
  | keepaliveStart (waitTask : Option (NextTask ε))
  | keepalive (waitTask : Option (NextTask ε))

/-- A stream of `new_generator`. -/
structure Stream (ε : Type) where
  state : StreamState ε
  generator : Generator ε

section Streams

variable {ε : Type}

/-- The loop without keepalives. -/
def resumePlain (generator : Generator ε) : (Output × Stream ε) ⊕ StreamEnding ε :=
  match generator.anext with
  | (⟨_, .inl item⟩, generator) => .inl (.text item, ⟨.plain, generator⟩)
  | (⟨_, .inr ending⟩, _) => .inr (.ended ending)

/-- `new_generator`, to its next output or its end. -/
def Stream.resume (stream : Stream ε) : (Output × Stream ε) ⊕ StreamEnding ε :=
  match stream.state with
  | .first item =>
    if item.isEmpty then resumePlain stream.generator
    else .inl (.text item, ⟨.plain, stream.generator⟩)
  | .plain => resumePlain stream.generator
  | .keepaliveStart waitTask => .inl (.keepalive, ⟨.keepalive waitTask, stream.generator⟩)
  | .keepalive waitTask =>
    match waitForTimeout stream.generator waitTask with
    | (.inl task, generator) => .inl (.keepalive, ⟨.keepalive (some task), generator⟩)
    | (.inr (.inl item), generator) => .inl (.text item, ⟨.keepalive none, generator⟩)
    | (.inr (.inr (.raised error)), _) => .inr (.ended (.raised error))
    -- the task raises StopAsyncIteration, which leaves the asynchronous generator
    | (.inr (.inr .normal), _) => .inr .runtimeError

/-- The outputs of a stream that is read to its end, and its end; `none` if there are more. -/
def Stream.collect : Nat → Stream ε → Option (List Output × StreamEnding ε)
  | 0, _ => none
  | fuel + 1, stream =>
    match stream.resume with
    | .inl (output, stream) => (stream.collect fuel).map fun (outputs, ending) =>
      (output :: outputs, ending)
    | .inr ending => some ([], ending)

/-- The texts among the outputs. -/
def texts (outputs : List Output) : List Bytes :=
  outputs.filterMap fun output => match output with
    | .keepalive => none
    | .text item => some item

/-! ### The wrapper -/

/-- What is accepted as a first item. An empty text is no JSON. -/
structure FirstItemCheck where
  accepts : Bytes → Bool
  empty : accepts [] = false

/-- `error_handling_wrapper` after the first item: the stream, if the item is accepted. -/
def acceptFirst (check : FirstItemCheck) (generator : Generator ε) : Bytes ⊕ Ending ε →
    Option (Stream ε)
  | .inl item => if check.accepts item then some ⟨.first item, generator⟩ else none
  | .inr _ => none

/-- `error_handling_wrapper`, to its stream. -/
def errorHandlingWrapper (check : FirstItemCheck) (keepalive : Bool) (generator : Generator ε) :
    Option (Stream ε) :=
  if keepalive then
    match waitForTimeout generator none with
    | (.inl task, generator) => some ⟨.keepaliveStart (some task), generator⟩
    | (.inr result, generator) => acceptFirst check generator result
  else acceptFirst check generator.anext.2 generator.anext.1.result

/-! ### Streams read to their end -/

/-- A stream that is read to its end gives the outputs, and ends so. -/
def Reads (stream : Stream ε) (outputs : List Output) (ending : StreamEnding ε) : Prop :=
  ∃ fuel, stream.collect fuel = some (outputs, ending)

theorem Reads.output {stream next : Stream ε} {output : Output} {outputs : List Output}
    {ending : StreamEnding ε} (resumed : stream.resume = .inl (output, next))
    (reads : Reads next outputs ending) : Reads stream (output :: outputs) ending := by
  obtain ⟨fuel, collected⟩ := reads
  refine ⟨fuel + 1, ?_⟩
  unfold Stream.collect
  rw [resumed]
  simp [collected]

theorem Reads.ended {stream : Stream ε} {ending : StreamEnding ε}
    (resumed : stream.resume = .inr ending) : Reads stream [] ending := by
  refine ⟨1, ?_⟩
  unfold Stream.collect
  rw [resumed]

theorem Reads.congr {stream other : Stream ε} {outputs : List Output} {ending : StreamEnding ε}
    (same : other.resume = stream.resume) (reads : Reads stream outputs ending) :
    Reads other outputs ending := by
  obtain ⟨fuel, collected⟩ := reads
  cases fuel with
  | zero => cases collected
  | succ fuel =>
    refine ⟨fuel + 1, ?_⟩
    unfold Stream.collect at collected ⊢
    rw [same]
    exact collected

/-- A stream gives the same outputs and end however long it is read. -/
theorem collect_unique {fuel more : Nat} {stream : Stream ε} {first second : List Output × StreamEnding ε}
    (reads : stream.collect fuel = some first) (again : stream.collect more = some second) :
    first = second := by
  induction fuel generalizing more stream first second with
  | zero => cases reads
  | succ fuel ih =>
    cases more with
    | zero => cases again
    | succ more =>
      unfold Stream.collect at reads again
      cases resumed : stream.resume with
      | inl next =>
        rw [resumed] at reads again
        obtain ⟨rest, collected, rfl⟩ := Option.map_eq_some_iff.mp reads
        obtain ⟨rest', collected', rfl⟩ := Option.map_eq_some_iff.mp again
        rw [ih collected collected']
      | inr ending =>
        rw [resumed] at reads again
        cases reads
        cases again
        rfl

theorem Reads.unique {stream : Stream ε} {outputs others : List Output} {ending other : StreamEnding ε}
    (reads : Reads stream outputs ending) (again : Reads stream others other) :
    outputs = others ∧ ending = other := by
  obtain ⟨fuel, collected⟩ := reads
  obtain ⟨more, collected'⟩ := again
  exact Prod.mk.inj (collect_unique collected collected')

/-- **Without keepalives** a stream gives the items, and ends as its generator. -/
theorem reads_plain (generator : Generator ε) :
    Reads ⟨.plain, generator⟩ (generator.items.map fun item => .text item.2)
      (.ended generator.ending) := by
  obtain ⟨items, intervals, ending⟩ := generator
  induction items with
  | nil => exact Reads.ended rfl
  | cons item rest ih => exact Reads.output rfl ih

theorem reads_first {generator : Generator ε} {item : Bytes} (present : item ≠ []) :
    Reads ⟨.first item, generator⟩ (.text item :: generator.items.map fun item => .text item.2)
      (.ended generator.ending) := by
  refine Reads.output ?_ (reads_plain generator)
  cases item with
  | nil => exact absurd rfl present
  | cons byte rest => rfl

/-- How a stream with keepalives ends. -/
def keepaliveEnding : Ending ε → StreamEnding ε
  | .normal => .runtimeError
  | .raised error => .ended (.raised error)

/-- A stream with keepalives that gives the items and ends with `ending`. -/
def Delivers (stream : Stream ε) (items : List Bytes) (ending : StreamEnding ε) : Prop :=
  ∃ outputs, Reads stream outputs ending ∧ texts outputs = items

/-- Intervals that expire give keepalives, and leave the task as it is. -/
theorem delivers_waiting {generator : Generator ε} {result : Bytes ⊕ Ending ε} {items : List Bytes}
    {ending : StreamEnding ε}
    (done : Delivers ⟨.keepalive (some ⟨0, result⟩), generator⟩ items ending) (intervals : Nat) :
    Delivers ⟨.keepalive (some ⟨intervals, result⟩), generator⟩ items ending := by
  induction intervals with
  | zero => exact done
  | succ intervals ih =>
    obtain ⟨outputs, reads, same⟩ := ih
    exact ⟨.keepalive :: outputs, Reads.output rfl reads, same⟩

theorem resume_keepalive_none (generator : Generator ε) :
    (⟨.keepalive none, generator⟩ : Stream ε).resume =
      (⟨.keepalive (some generator.anext.1), generator.anext.2⟩ : Stream ε).resume := rfl

/-- **With keepalives** a stream gives the items. -/
theorem reads_keepalive (generator : Generator ε) :
    Delivers ⟨.keepalive none, generator⟩ (generator.items.map Prod.snd)
      (keepaliveEnding generator.ending) := by
  obtain ⟨items, intervals, ending⟩ := generator
  induction items with
  | nil =>
    have done : Delivers ⟨.keepalive (some ⟨0, .inr ending⟩), ⟨[], 0, .normal⟩⟩ []
        (keepaliveEnding ending) := by
      refine ⟨[], Reads.ended ?_, rfl⟩
      cases ending <;> rfl
    obtain ⟨outputs, reads, same⟩ := delivers_waiting done intervals
    exact ⟨outputs, Reads.congr (resume_keepalive_none ⟨[], intervals, ending⟩) reads, same⟩
  | cons item rest ih =>
    obtain ⟨waits, item⟩ := item
    have done : Delivers ⟨.keepalive (some ⟨0, .inl item⟩), ⟨rest, intervals, ending⟩⟩
        (item :: rest.map Prod.snd) (keepaliveEnding ending) := by
      obtain ⟨outputs, reads, same⟩ := ih
      refine ⟨.text item :: outputs, Reads.output rfl reads, ?_⟩
      exact congrArg (item :: ·) same
    obtain ⟨outputs, reads, same⟩ := delivers_waiting done waits
    exact ⟨outputs, Reads.congr
      (resume_keepalive_none ⟨(waits, item) :: rest, intervals, ending⟩) reads, same⟩

theorem texts_map_text (items : List (Nat × Bytes)) :
    texts (items.map fun item => .text item.2) = items.map Prod.snd := by
  unfold texts
  rw [List.filterMap_map]
  exact congrFun List.filterMap_eq_map items

/-- **Keepalives are transparent**, for a generator whose first item is accepted without them, if and
only if the first item comes before an interval expires, or the generator ends in an exception. -/
theorem keepalive_transparent_iff (check : FirstItemCheck) (generator : Generator ε)
    {plain : Stream ε} (accepted : errorHandlingWrapper check false generator = some plain) :
    (∃ stream, errorHandlingWrapper check true generator = some stream ∧
        Delivers stream (generator.items.map Prod.snd) (.ended generator.ending)) ↔
      generator.items.head?.any (·.1 = 0) ∨ generator.ending ≠ .normal := by
  obtain ⟨items, intervals, ending⟩ := generator
  cases items with
  | nil => cases accepted
  | cons first rest =>
    obtain ⟨waits, item⟩ := first
    have isAccepted : check.accepts item = true := by
      by_contra refused
      have nothing : errorHandlingWrapper check false ⟨(waits, item) :: rest, intervals, ending⟩ =
          none := if_neg refused
      rw [nothing] at accepted
      cases accepted
    have present : item ≠ [] := by
      rintro rfl
      rw [check.empty] at isAccepted
      cases isAccepted
    cases waits with
    | zero =>
      have stream : errorHandlingWrapper check true ⟨(0, item) :: rest, intervals, ending⟩ =
          some ⟨.first item, ⟨rest, intervals, ending⟩⟩ := if_pos isAccepted
      refine iff_of_true ⟨_, stream, _, reads_first present, ?_⟩ (.inl rfl)
      exact congrArg (item :: ·) (texts_map_text rest)
    | succ waits =>
      have stream : errorHandlingWrapper check true ⟨(waits + 1, item) :: rest, intervals, ending⟩ =
          some ⟨.keepaliveStart (some ⟨waits, .inl item⟩), ⟨rest, intervals, ending⟩⟩ := rfl
      -- the first item comes after a keepalive, and the others as without a pending task
      obtain ⟨outputs, reads, same⟩ := reads_keepalive ⟨(waits, item) :: rest, intervals, ending⟩
      have started : Reads ⟨.keepaliveStart (some ⟨waits, .inl item⟩), ⟨rest, intervals, ending⟩⟩
          (.keepalive :: outputs) (keepaliveEnding ending) :=
        Reads.output rfl (Reads.congr
          (resume_keepalive_none ⟨(waits, item) :: rest, intervals, ending⟩).symm reads)
      constructor
      · rintro ⟨other, isStream, others, delivered, -⟩
        rw [stream] at isStream
        cases isStream
        refine .inr fun isNormal => ?_
        obtain ⟨-, ends⟩ := started.unique delivered
        rw [show ending = .normal from isNormal] at ends
        cases ends
      · rintro (atOnce | notNormal)
        · cases atOnce
        · cases ending with
          | normal => exact absurd rfl notNormal
          | raised error => exact ⟨_, stream, .keepalive :: outputs, started, same⟩

end Streams

/-! ### A stream of one item -/

/-- Any text but the empty one is accepted. -/
def acceptsTexts : FirstItemCheck := ⟨fun item => !item.isEmpty, rfl⟩

/-- An object without members. -/
def braces : Bytes := [123, 125]

/-- A generator of one item that comes after an interval. -/
def slowItem (ending : Ending Unit) : Generator Unit := ⟨[(1, braces)], 0, ending⟩

theorem keepalive_transparent_raised :
    ∃ stream, errorHandlingWrapper acceptsTexts true (slowItem (.raised ())) = some stream ∧
      Delivers stream ((slowItem (.raised ())).items.map Prod.snd) (.ended (.raised ())) := by
  have accepted : errorHandlingWrapper acceptsTexts false (slowItem (.raised ())) =
      some ⟨.first braces, ⟨[], 0, .raised ()⟩⟩ := rfl
  exact (keepalive_transparent_iff acceptsTexts (slowItem (.raised ())) accepted).mpr (.inr nofun)

/-- **A normal end** after a keepalive is an exception of the stream. -/
theorem normal_end_raises :
    (errorHandlingWrapper acceptsTexts true (slowItem .normal)).bind (Stream.collect 4) =
        some ([.keepalive, .text braces], .runtimeError) ∧
      (errorHandlingWrapper acceptsTexts false (slowItem .normal)).bind (Stream.collect 4) =
        some ([.text braces], .ended .normal) :=
  ⟨rfl, rfl⟩

end UniApi.Upstream
