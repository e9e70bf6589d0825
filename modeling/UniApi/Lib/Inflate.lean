/-
**A decompressor that reads a stream piece by piece.**

* `Format`: what the bytes of a stream decode to, and which bytes are a complete stream;
* `Decompressor`: an object with its input attributes, as a bounded decompressor documents them;
* `Decompressor.Inflates`: the object reads streams of the format, however they are cut;
* `Format.single`, `Decompressor.single`: a format with one stream, and an object that reads it.
-/

import Mathlib.Data.List.Infix
import UniApi.Lib.Utf8

namespace UniApi.Lib

/-- A compressed format. Bytes decode as far as they go. -/
structure Format where
  decoded : Bytes → Bytes
  Complete : Bytes → Prop
  /-- More bytes decode to more. -/
  decoded_prefix : ∀ first second, decoded first <+: decoded (first ++ second)
  /-- No complete stream goes on. -/
  complete_append : ∀ {first second}, Complete first → Complete (first ++ second) → second = []

/-- An object that decompresses, on its states. -/
structure Decompressor (σ : Type) where
  /-- Some bytes are decompressed to at most so many. -/
  decompress : Bytes → ℕ → σ → Except Unit (Bytes × σ)
  flush : ℕ → σ → Except Unit (Bytes × σ)
  /-- Input that did not fit the output. It is to be passed again. -/
  unconsumedTail : σ → Bytes
  /-- Input behind the end of the stream. -/
  unusedData : σ → Bytes
  eof : σ → Bool

/-- **The object reads the format.** `Holds state consumed given`: the state after this input and
this output. -/
structure Decompressor.Inflates {σ : Type} (object : Decompressor σ) (format : Format) (start : σ)
    (Holds : σ → Bytes → Bytes → Prop) : Prop where
  start_holds : Holds start [] []
  start_unused : object.unusedData start = []
  /-- The output is what the input decodes to, as far as it goes. -/
  given_prefix : ∀ {state consumed given}, Holds state consumed given →
    given <+: format.decoded consumed
  /-- At the end the stream is complete, and its output is given. -/
  ended : ∀ {state consumed given}, Holds state consumed given → object.eof state = true →
    format.Complete consumed ∧ given = format.decoded consumed ∧ object.unconsumedTail state = []
  /-- No input is unused before the end. -/
  running : ∀ {state consumed given}, Holds state consumed given → object.eof state = false →
    object.unusedData state = []
  /-- The input is consumed, left in the tail, or behind the end. -/
  decompress : ∀ {state consumed given data size output after}, Holds state consumed given →
    object.decompress data size state = .ok (output, after) →
      (∃ used, object.unusedData state ++ data =
          used ++ (object.unconsumedTail after ++ object.unusedData after) ∧
        Holds after (consumed ++ used) (given ++ output)) ∧
      (object.eof state = true → object.eof after = true)
  /-- Without a tail a flush consumes nothing, and gives more output. -/
  flush : ∀ {state consumed given size output after}, Holds state consumed given →
    object.unconsumedTail state = [] → object.flush size state = .ok (output, after) →
      Holds after consumed (given ++ output)

namespace Decompressor.Inflates

variable {σ : Type} {object : Decompressor σ} {format : Format} {start : σ}
  {Holds : σ → Bytes → Bytes → Prop} {state after : σ} {consumed given data output : Bytes}
  {size : ℕ}

/-- Behind the end nothing is consumed, and everything is unused. -/
theorem decompress_ended (inflates : object.Inflates format start Holds)
    (holds : Holds state consumed given) (ended : object.eof state = true)
    (returned : object.decompress data size state = .ok (output, after)) :
    output = [] ∧ object.unconsumedTail after = [] ∧
      object.unusedData after = object.unusedData state ++ data ∧ Holds after consumed given := by
  obtain ⟨⟨used, input, later⟩, still⟩ := inflates.decompress holds returned
  obtain ⟨complete, whole, -⟩ := inflates.ended holds ended
  obtain ⟨completeAfter, wholeAfter, noTail⟩ := inflates.ended later (still ended)
  have nothing : used = [] := format.complete_append complete completeAfter
  subst nothing
  rw [List.append_nil] at wholeAfter later
  have noOutput : output = [] := by
    rw [whole] at wholeAfter
    exact List.append_right_eq_self.mp wholeAfter
  subst noOutput
  rw [List.append_nil] at later
  rw [noTail] at input
  exact ⟨rfl, noTail, input.symm, later⟩

theorem tail_length (inflates : object.Inflates format start Holds)
    (holds : Holds state consumed given)
    (returned : object.decompress data size state = .ok (output, after)) :
    (object.unconsumedTail after).length ≤ data.length := by
  cases ended : object.eof state with
  | true =>
    rw [(inflates.decompress_ended holds ended returned).2.1]
    exact Nat.zero_le _
  | false =>
    obtain ⟨⟨used, input, -⟩, -⟩ := inflates.decompress holds returned
    rw [inflates.running holds ended, List.nil_append] at input
    rw [input, List.length_append, List.length_append]
    omega

theorem flush_ended (inflates : object.Inflates format start Holds)
    (holds : Holds state consumed given) (ended : object.eof state = true)
    (returned : object.flush size state = .ok (output, after)) : output = [] := by
  obtain ⟨-, whole, noTail⟩ := inflates.ended holds ended
  have within := (inflates.given_prefix (inflates.flush holds noTail returned)).length_le
  rw [← whole, List.length_append] at within
  exact List.length_eq_zero_iff.mp (by omega)

end Decompressor.Inflates

/-! ### One stream -/

/-- **A format with one stream**, of one byte. -/
def Format.single (stream : Bytes) (byte : UInt8) : Format where
  decoded bytes := if stream <+: bytes then [byte] else []
  Complete bytes := bytes = stream
  decoded_prefix first second := by
    split
    · rename_i whole
      rw [if_pos (whole.trans (List.prefix_append first second))]
    · exact List.nil_prefix
  complete_append complete longer := by
    subst complete
    exact List.append_right_eq_self.mp longer

/-- What an object for one stream keeps. -/
structure SingleState where
  stream : Bytes
  byte : UInt8
  consumed : Bytes
  unused : Bytes

/-- An object for one stream. Its output of one byte fits every bound. -/
def Decompressor.single : Decompressor SingleState where
  decompress data _ state :=
    if state.consumed = state.stream then .ok ([], { state with unused := state.unused ++ data })
    else if state.stream <+: state.consumed ++ data then
      .ok ([state.byte], { state with
        consumed := state.stream
        unused := (state.consumed ++ data).drop state.stream.length })
    else if state.consumed ++ data <+: state.stream then
      .ok ([], { state with consumed := state.consumed ++ data })
    else .error ()
  flush _ state := .ok ([], state)
  unconsumedTail _ := []
  unusedData := SingleState.unused
  eof state := state.consumed = state.stream

/-- The state after some input. -/
structure SingleState.After (stream : Bytes) (byte : UInt8) (state : SingleState)
  (consumed given : Bytes) :
    Prop where
  isStream : state.stream = stream
  isByte : state.byte = byte
  isConsumed : state.consumed = consumed
  within : consumed <+: stream
  isGiven : given = (Format.single stream byte).decoded consumed
  used : consumed ≠ stream → state.unused = []

theorem Decompressor.single_inflates {stream : Bytes} (byte : UInt8) (nonempty : stream ≠ []) :
    Decompressor.single.Inflates (Format.single stream byte)
      { stream, byte, consumed := [], unused := [] } (SingleState.After stream byte) where
  start_holds := ⟨rfl, rfl, rfl, List.nil_prefix,
    (if_neg fun whole => nonempty (List.prefix_nil.mp whole)).symm,
    fun _ => rfl⟩
  start_unused := rfl
  given_prefix after := after.isGiven ▸ List.prefix_rfl
  ended after ended := by
    have whole := of_decide_eq_true ended
    rw [after.isConsumed, after.isStream] at whole
    exact ⟨whole, after.isGiven, rfl⟩
  running after running := by
    have part := of_decide_eq_false running
    rw [after.isConsumed, after.isStream] at part
    exact after.used part
  decompress {state consumed given data size output result} after returned := by
    obtain ⟨rfl, rfl, rfl, within, isGiven, used⟩ := after
    unfold Decompressor.single at returned
    dsimp only at returned
    split at returned
    · rename_i ended
      cases returned
      refine ⟨⟨[], rfl, rfl, rfl, (List.append_nil _).symm, ?_, ?_, ?_⟩, id⟩
      · rw [List.append_nil]
        exact within
      · rw [List.append_nil, List.append_nil]
        exact isGiven
      · exact fun other => absurd ((List.append_nil _).trans ended) other
    · rename_i running
      have nothing : given = [] := by
        rw [isGiven]
        exact if_neg fun whole => running (within.eq_of_length_le whole.length_le)
      have unused := used running
      refine ⟨?_, fun ended => absurd (of_decide_eq_true ended) running⟩
      split at returned
      · rename_i whole
        cases returned
        obtain ⟨rest, isWhole⟩ := whole
        obtain ⟨further, isStream⟩ := within
        have isData : data = further ++ rest := by
          rw [← isStream, List.append_assoc] at isWhole
          exact (List.append_cancel_left isWhole).symm
        refine ⟨further, ?_, rfl, rfl, isStream.symm, ?_, ?_, ?_⟩
        · show state.unused ++ data =
            further ++ ([] ++ (state.consumed ++ data).drop state.stream.length)
          rw [unused, ← isWhole, List.drop_left, isData]
          rfl
        · rw [isStream]
        · rw [isStream, nothing]
          exact (if_pos List.prefix_rfl).symm
        · exact fun other => absurd isStream other
      · rename_i part
        split at returned
        · rename_i inside
          cases returned
          refine ⟨data, ?_, rfl, rfl, rfl, inside, ?_, fun _ => unused⟩
          · show state.unused ++ data = data ++ ([] ++ state.unused)
            rw [unused]
            exact (List.append_nil data).symm
          · rw [nothing]
            exact (if_neg part).symm
        · cases returned
  flush after _ returned := by
    cases returned
    rw [List.append_nil]
    exact after

end UniApi.Lib
