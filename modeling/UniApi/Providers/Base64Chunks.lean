/-
**Base64 in chunks: `base64_chunks.py`.**

Bytes are encoded and texts are decoded in chunks of whole groups. Only the last chunk of a text may have
`=` in it, and it is filled up.

* `encodedParts_eq`, `encodeBytes_from`: encoding in chunks is encoding the whole;
* `decodeChunks_decodes`, `decodeChunks_fails`: the loop over the chunks of a text;
* `predicted_eq`: the predicted number of bytes;
* `base64_in_chunks`: decoding in chunks is decoding the whole.
-/

import UniApi.Lib.Base64
import UniApi.Lib.PyText

namespace UniApi.Providers.Base64Chunks

open UniApi.Lib

/-! ### The source -/

/-- `ChunkedBase64Error`. -/
structure ChunkedBase64Error where
  message : String

/-- `BASE64_DECODE_CHUNK_CHARS`. -/
def base64DecodeChunkChars : ℕ := 64 * 1024

/-- `BASE64_ENCODE_CHUNK_BYTES`. -/
def base64EncodeChunkBytes : ℕ := 48 * 1024

/-- `range(start, stop, step)`. -/
def rangeBy (start stop step : ℕ) : List ℕ := List.range' start ((stop - start + step - 1) / step) step

/-- `value[start:stop]`. -/
def slice {α : Type} (value : List α) (start stop : ℕ) : List α := (value.drop start).take (stop - start)

/-- `_strict_decode_chunk`. -/
def strictDecodeChunk (value : PyText) : Except ChunkedBase64Error Bytes :=
  match Base64.strictDecode value with
  | some bytes => .ok bytes
  | none => .error ⟨"invalid base64 payload"⟩

/-- `_encode_chunk`. -/
def encodeChunk (value : Bytes) : PyText := Base64.encode value

/-- `(-len(value)) % 4`. -/
def addedPadding (value : PyText) : ℤ := -(value.length : ℤ) % 4

/-- `predicted_decoded_base64_bytes`. -/
def predictedDecodedBase64Bytes (value : PyText) : Except ChunkedBase64Error ℤ :=
  if value = [] ∨ value.length % 4 = 1 then .error ⟨"invalid base64 length"⟩
  else
    let existingPadding := value.length - (Base64.letters value).length
    if 2 < existingPadding then .error ⟨"invalid base64 padding"⟩
    else
      .ok ((value.length + addedPadding value) / 4 * 3 - (existingPadding + addedPadding value))

/-- `value + "=" * ((-len(value)) % 4)`. -/
def completed (value : PyText) : PyText := value ++ List.replicate (addedPadding value).toNat 61

/-- The loop of `iter_strict_base64_decoded_chunks`: the chunks that are yielded, and how it ends. -/
def decodeChunks (value : PyText) (maxDecodedBytes : ℤ) :
    ℕ → List ℕ → List Bytes × Except ChunkedBase64Error Unit
  | _, [] => ([], .ok ())
  | totalDecoded, offset :: offsets =>
    let stop := min value.length (offset + base64DecodeChunkChars)
    let originalChunk := slice value offset stop
    let isFinal := stop == value.length
    if !isFinal && originalChunk.contains 61 then ([], .error ⟨"base64 padding before final chunk"⟩)
    else
      match strictDecodeChunk (if isFinal then completed originalChunk else originalChunk) with
      | .error error => ([], .error error)
      | .ok decodedChunk =>
        let totalDecoded := totalDecoded + decodedChunk.length
        if maxDecodedBytes < totalDecoded then ([], .error ⟨"decoded base64 payload is too large"⟩)
        else
          let later := decodeChunks value maxDecodedBytes totalDecoded offsets
          (decodedChunk :: later.1, later.2)

/-- `iter_strict_base64_decoded_chunks`. -/
def iterStrictBase64DecodedChunks (value : PyText) (maxEncodedChars maxDecodedBytes : ℤ)
    (startIndex : ℤ := 0) : List Bytes × Except ChunkedBase64Error Unit :=
  let payloadLength : ℤ := value.length - startIndex
  if startIndex < 0 ∨ payloadLength ≤ 0 ∨ maxEncodedChars < payloadLength ∨ payloadLength % 4 = 1 then
    ([], .error ⟨"invalid or oversized base64 payload"⟩)
  else
    decodeChunks value maxDecodedBytes 0 (rangeBy startIndex.toNat value.length base64DecodeChunkChars)

/-- `encode_bytes_base64_chunks`. -/
def encodeBytesBase64Chunks (value : Bytes) (leading : PyText := []) : PyText :=
  leading ++ ((rangeBy 0 value.length base64EncodeChunkBytes).map fun offset =>
    encodeChunk (slice value offset (offset + base64EncodeChunkBytes))).flatten

/-- The encoded parts of a byte stream, with the bytes that are pending. -/
def encodedParts (pending : Bytes) : List Bytes → List PyText
  | [] => if pending.isEmpty then [] else [encodeChunk pending]
  | chunk :: chunks =>
    let combined := pending ++ chunk
    let completeBytes := combined.length / 3 * 3
    (if completeBytes = 0 then [] else [encodeChunk (combined.take completeBytes)])
      ++ encodedParts (combined.drop completeBytes) chunks

/-- `encode_byte_stream_base64_chunks`. -/
def encodeByteStreamBase64Chunks (chunks : List Bytes) (leading : Bytes := []) : PyText :=
  (encodedParts leading chunks).flatten

/-! ### Ranges -/

theorem rangeBy_nil {start stop step : ℕ} (behind : stop ≤ start) (some_ : 0 < step) :
    rangeBy start stop step = [] := by
  rw [rangeBy, Nat.sub_eq_zero_of_le behind, Nat.zero_add, Nat.div_eq_of_lt (by omega)]
  rfl

theorem rangeBy_cons {start stop step : ℕ} (before : start < stop) (some_ : 0 < step) :
    rangeBy start stop step = start :: rangeBy (start + step) stop step := by
  have count : (stop - start + step - 1) / step = (stop - (start + step) + step - 1) / step + 1 := by
    rw [show stop - start + step - 1 = stop - start - 1 + step by omega, Nat.add_div_right _ some_]
    rcases Nat.lt_or_ge (stop - start) step with short | long
    · rw [Nat.div_eq_of_lt (by omega), Nat.div_eq_of_lt (by omega)]
    · rw [show stop - (start + step) + step - 1 = stop - start - 1 by omega]
  rw [rangeBy, count, List.range'_succ]
  rfl

/-! ### Encoding -/

/-- **A byte stream is encoded as its bytes are.** -/
theorem encodedParts_eq (chunks : List Bytes) :
    ∀ pending : Bytes, (encodedParts pending chunks).flatten = Base64.encode
      (pending ++ chunks.flatten) := by
  induction chunks with
  | nil =>
    intro pending
    rw [List.flatten_nil, List.append_nil, encodedParts]
    cases pending <;> simp [encodeChunk, Base64.encode, Base64.pack, Base64.padding]
  | cons chunk chunks ih =>
    intro pending
    have split := List.take_append_drop ((pending ++ chunk).length / 3 * 3) (pending ++ chunk)
    have groups : 3 ∣ ((pending ++ chunk).take ((pending ++ chunk).length / 3 * 3)).length := by
      rw [List.length_take, min_eq_left (Nat.div_mul_le_self _ 3)]
      exact Nat.dvd_mul_left 3 _
    have whole : Base64.encode (pending ++ (chunk :: chunks).flatten)
        = Base64.encode ((pending ++ chunk).take ((pending ++ chunk).length / 3 * 3))
          ++ Base64.encode ((pending ++ chunk).drop ((pending ++ chunk).length / 3 * 3)
            ++ chunks.flatten) := by
      rw [← Base64.encode_append _ groups, ← List.append_assoc, split, List.flatten_cons, List.append_assoc]
    rw [encodedParts, List.flatten_append, ih, whole]
    split_ifs with nothing
    · rw [nothing, List.take_zero]
      rfl
    · rw [List.flatten_singleton]
      rfl

/-- **Bytes are encoded in chunks as they are encoded whole.** -/
theorem encodeBytes_from (value : Bytes) : ∀ offset,
    ((rangeBy offset value.length base64EncodeChunkBytes).map
    fun offset => encodeChunk (slice value offset (offset + base64EncodeChunkBytes))).flatten
      = Base64.encode (value.drop offset) := by
  intro offset
  induction remaining : value.length - offset using Nat.strong_induction_on generalizing offset with
  | _ remaining ih =>
    rcases Nat.lt_or_ge offset value.length with before | behind
    · rw [rangeBy_cons before (by decide), List.map_cons, List.flatten_cons,
        ih (value.length - (offset + base64EncodeChunkBytes))
          (by unfold base64EncodeChunkBytes; omega) (offset + base64EncodeChunkBytes) rfl]
      have chunk : encodeChunk (slice value offset (offset + base64EncodeChunkBytes))
          = Base64.encode ((value.drop offset).take base64EncodeChunkBytes) := by
        rw [slice, Nat.add_sub_cancel_left]
        rfl
      rw [chunk, ← List.drop_drop]
      rcases Nat.lt_or_ge base64EncodeChunkBytes (value.drop offset).length with more | last
      · have groups : 3 ∣ ((value.drop offset).take base64EncodeChunkBytes).length := by
          rw [List.length_take, min_eq_left more.le]
          decide
        rw [← Base64.encode_append _ groups, List.take_append_drop]
      · rw [List.take_of_length_le last, List.drop_eq_nil_of_le last]
        exact List.append_nil _
    · rw [rangeBy_nil behind (by decide), List.drop_eq_nil_of_le behind]
      rfl

/-! ### Decoding -/

section Decoding

variable {value : PyText} {maxDecodedBytes : ℤ}

theorem completed_length (payload : PyText) :
    (completed payload).length = payload.length + (4 - payload.length % 4) % 4 := by
  rw [completed, List.length_append, List.length_replicate, addedPadding]
  omega

/-- Whole groups in front of a text leave what it is filled up with. -/
theorem completed_append {first : PyText} (second : PyText) (whole : 4 ∣ first.length) :
    completed (first ++ second) = first ++ completed second := by
  have same : addedPadding (first ++ second) = addedPadding second := by
    rw [addedPadding, addedPadding, List.length_append]
    omega
  rw [completed, completed, same, List.append_assoc]

theorem completed_whole {payload : PyText} (whole : 4 ∣ payload.length) : completed payload = payload := by
  have none_ : addedPadding payload = 0 := by
    rw [addedPadding]
    omega
  rw [completed, none_]
  exact List.append_nil payload

/-- **A sign before the last group is not decoded.** -/
theorem sign_before_last {front rest : PyText} (sign : 61 ∈ front) (groups : 4 ∣ front.length)
    (some_ : rest ≠ []) :
    Base64.strictDecode (completed (front ++ rest)) = none := by
  rw [Option.eq_none_iff_forall_ne_some]
  intro bytes decodes
  obtain ⟨values, signs, same, few, whole, -⟩ := Base64.strictDecode_eq_some_iff.mp decodes
  rw [completed_append rest groups] at same
  have more := List.length_pos_iff.mpr some_
  have length := congrArg List.length same
  rw [List.length_append, List.length_append, List.length_map, List.length_replicate,
    completed_length] at length
  -- what is in front of the last group are letters
  have inFront : front = (values.map Base64.letter).take front.length := by
    have front' := congrArg (List.take front.length) same
    rwa [List.take_left, List.take_append_of_le_length (by rw [List.length_map]; omega)] at front'
  rw [inFront] at sign
  exact Base64.sign_not_letter values (List.mem_of_mem_take sign)

/-- A chunk that is not the last one. -/
theorem decodeChunks_next {start total : ℕ} (more : start + base64DecodeChunkChars < value.length) :
    decodeChunks value maxDecodedBytes total (rangeBy start value.length base64DecodeChunkChars)
      = if 61 ∈ (value.drop start).take base64DecodeChunkChars then
          ([], .error ⟨"base64 padding before final chunk"⟩)
        else
          match Base64.strictDecode ((value.drop start).take base64DecodeChunkChars) with
          | none => ([], .error ⟨"invalid base64 payload"⟩)
          | some decoded =>
            if maxDecodedBytes < (total + decoded.length : ℕ) then
              ([], .error ⟨"decoded base64 payload is too large"⟩)
            else
              let later := decodeChunks value maxDecodedBytes (total + decoded.length)
                (rangeBy (start + base64DecodeChunkChars) value.length base64DecodeChunkChars)
              (decoded :: later.1, later.2) := by
  have stop : min value.length (start + base64DecodeChunkChars) = start + base64DecodeChunkChars :=
    min_eq_right more.le
  have notLast : (start + base64DecodeChunkChars == value.length) = false := beq_eq_false_iff_ne.mpr more.ne
  -- the kernel must not count the letters of a chunk
  have sliced : slice value start (start + base64DecodeChunkChars) =
      (value.drop start).take base64DecodeChunkChars := by
    rw [slice, Nat.add_sub_cancel_left]
  rw [rangeBy_cons (by omega) (by decide), decodeChunks, stop, notLast]
  simp only [sliced, Bool.not_false, Bool.true_and, List.contains_iff_mem, Bool.false_eq_true, if_false]
  rw [strictDecodeChunk]
  cases Base64.strictDecode ((value.drop start).take base64DecodeChunkChars) <;> rfl

/-- The last chunk. -/
theorem decodeChunks_last {start total : ℕ} (before : start < value.length)
    (last : value.length ≤ start + base64DecodeChunkChars) :
    decodeChunks value maxDecodedBytes total (rangeBy start value.length base64DecodeChunkChars)
      = match Base64.strictDecode (completed (value.drop start)) with
        | none => ([], .error ⟨"invalid base64 payload"⟩)
        | some decoded =>
          if maxDecodedBytes < (total + decoded.length : ℕ) then
            ([], .error ⟨"decoded base64 payload is too large"⟩)
          else ([decoded], .ok ()) := by
  have stop : min value.length (start + base64DecodeChunkChars) = value.length := min_eq_left last
  have whole : slice value start value.length = value.drop start := by
    rw [slice, ← List.length_drop, List.take_length]
  rw [rangeBy_cons before (by decide), rangeBy_nil last (by decide), decodeChunks, stop, whole]
  simp only [BEq.rfl, Bool.not_true, Bool.false_and, Bool.false_eq_true, if_false, if_true]
  rw [strictDecodeChunk]
  cases Base64.strictDecode (completed (value.drop start)) with
  | none => rfl
  | some decoded => simp only [decodeChunks]

/-- **The chunks of a text are decoded as the text is.** -/
theorem decodeChunks_decodes {bytes : Bytes} : ∀ {start total : ℕ},
    Base64.strictDecode (completed (value.drop start)) = some bytes →
      (total + bytes.length : ℕ) ≤ maxDecodedBytes → ∃ chunks,
        decodeChunks value maxDecodedBytes total (rangeBy start value.length base64DecodeChunkChars)
          = (chunks, .ok ()) ∧ chunks.flatten = bytes := by
  intro start total
  induction remaining : value.length - start using Nat.strong_induction_on
    generalizing start total bytes with
  | _ remaining ih =>
    intro decodes fits
    rcases Nat.lt_or_ge start value.length with before | behind
    swap
    · rw [List.drop_eq_nil_of_le behind] at decodes
      cases decodes
      exact ⟨[], by rw [rangeBy_nil behind (by decide)]; rfl, rfl⟩
    rcases Nat.lt_or_ge (start + base64DecodeChunkChars) value.length with more | last
    swap
    · rw [decodeChunks_last before last, decodes]
      dsimp only
      rw [if_neg (not_lt.mpr fits)]
      exact ⟨[bytes], rfl, List.append_nil bytes⟩
    have split := List.take_append_drop base64DecodeChunkChars (value.drop start)
    have groups : 4 ∣ ((value.drop start).take base64DecodeChunkChars).length := by
      rw [List.length_take, min_eq_left (by rw [List.length_drop]; omega)]
      decide
    rw [decodeChunks_next more]
    rw [← split] at decodes
    have some_ : (value.drop start).drop base64DecodeChunkChars ≠ [] := by
      rw [← List.length_pos_iff, List.length_drop, List.length_drop]
      omega
    by_cases sign : 61 ∈ (value.drop start).take base64DecodeChunkChars
    · rw [sign_before_last sign groups some_] at decodes
      cases decodes
    rw [completed_append _ groups, Base64.strictDecode_append _ sign groups] at decodes
    obtain ⟨decoded, first, later⟩ := Option.bind_eq_some_iff.mp decodes
    obtain ⟨rest, decodes', rfl⟩ := Option.map_eq_some_iff.mp later
    rw [List.drop_drop] at decodes'
    rw [List.length_append] at fits
    obtain ⟨chunks, runs, flat⟩ := ih (value.length - (start + base64DecodeChunkChars))
      (by unfold base64DecodeChunkChars at more ⊢; omega) rfl decodes'
      (by rwa [Nat.add_assoc])
    rw [if_neg sign, first]
    dsimp only
    rw [if_neg (by omega), runs]
    exact ⟨decoded :: chunks, rfl, by rw [List.flatten_cons, flat]⟩

/-- **A text that is not decoded is not decoded in chunks.** -/
theorem decodeChunks_fails : ∀ {start total : ℕ},
    Base64.strictDecode (completed (value.drop start)) = none → ∃ chunks error,
      decodeChunks value maxDecodedBytes total (rangeBy start value.length base64DecodeChunkChars)
        = (chunks, .error error) := by
  intro start total
  induction remaining : value.length - start using Nat.strong_induction_on generalizing start total with
  | _ remaining ih =>
    intro fails
    rcases Nat.lt_or_ge start value.length with before | behind
    swap
    · rw [List.drop_eq_nil_of_le behind] at fails
      cases fails
    rcases Nat.lt_or_ge (start + base64DecodeChunkChars) value.length with more | last
    swap
    · rw [decodeChunks_last before last, fails]
      exact ⟨_, _, rfl⟩
    have split := List.take_append_drop base64DecodeChunkChars (value.drop start)
    have groups : 4 ∣ ((value.drop start).take base64DecodeChunkChars).length := by
      rw [List.length_take, min_eq_left (by rw [List.length_drop]; omega)]
      decide
    rw [decodeChunks_next more]
    split_ifs with sign
    · exact ⟨_, _, rfl⟩
    cases first : Base64.strictDecode ((value.drop start).take base64DecodeChunkChars) with
    | none => exact ⟨_, _, rfl⟩
    | some decoded =>
      dsimp only
      split_ifs
      · exact ⟨_, _, rfl⟩
      rw [← split, completed_append _ groups, Base64.strictDecode_append _ sign groups, first,
        Option.bind_some,
        Option.map_eq_none_iff, List.drop_drop] at fails
      obtain ⟨chunks, error, runs⟩ := @ih (value.length - (start + base64DecodeChunkChars))
        (by unfold base64DecodeChunkChars at more ⊢; omega) _ (total + decoded.length) rfl fails
      rw [runs]
      exact ⟨_, _, rfl⟩

end Decoding

/-! ### The whole -/

/-- **Limits that admit the text** from the index on: there is some of it, and neither it nor what it
decodes to is longer than they allow. -/
structure Admits (value : PyText) (maxEncodedChars maxDecodedBytes startIndex : ℤ) : Prop where
  fromStart : 0 ≤ startIndex
  some_ : startIndex < value.length
  encoded : value.length - startIndex ≤ maxEncodedChars
  decoded : ∀ bytes, Base64.strictDecode (completed (value.drop startIndex.toNat)) = some bytes →
    bytes.length ≤ maxDecodedBytes

theorem predicted_eq {value : PyText} {bytes : Bytes} (some_ : value ≠ [])
    (wellFormed : value.length % 4 ≠ 1)
    (decodes : Base64.strictDecode (completed value) = some bytes) :
    predictedDecodedBase64Bytes value = .ok bytes.length := by
  have length := Base64.strictDecode_length decodes
  obtain ⟨few, -⟩ := Base64.strictDecode_fits decodes
  have same : Base64.letters (completed value) = Base64.letters value := Base64.letters_append_signs value _
  have shorter : (Base64.letters value).length ≤ value.length := (List.rdropWhile_prefix _ _).length_le
  have positive := List.length_pos_iff.mpr some_
  rw [same, completed_length] at length few
  rw [predictedDecodedBase64Bytes, if_neg (not_or.mpr ⟨some_, wellFormed⟩)]
  dsimp only
  rw [if_neg (by omega), addedPadding]
  congr 1
  omega

section Whole

variable {value : PyText} {maxEncodedChars maxDecodedBytes startIndex : ℤ}

/-- **A text is decoded in chunks just when it is decoded whole**, to the same bytes. -/
theorem iter_decodes_iff (admits : Admits value maxEncodedChars maxDecodedBytes startIndex)
    (bytes : Bytes) :
    (∃ chunks, iterStrictBase64DecodedChunks value maxEncodedChars maxDecodedBytes startIndex
        = (chunks, .ok ()) ∧ chunks.flatten = bytes) ↔
      (value.drop startIndex.toNat).length % 4 ≠ 1 ∧
        Base64.strictDecode (completed (value.drop startIndex.toNat)) = some bytes := by
  have fromStart := admits.fromStart
  have some_ := admits.some_
  have encoded := admits.encoded
  have length : ((value.drop startIndex.toNat).length : ℤ) = value.length - startIndex := by
    rw [List.length_drop]
    omega
  rw [iterStrictBase64DecodedChunks]
  by_cases single : (value.drop startIndex.toNat).length % 4 = 1
  · rw [if_pos (by omega)]
    constructor
    · rintro ⟨chunks, ends, -⟩
      cases ends
    · exact fun whole => absurd single whole.1
  rw [if_neg (by omega)]
  cases decodes : Base64.strictDecode (completed (value.drop startIndex.toNat)) with
  | none =>
    obtain ⟨chunks, error, runs⟩ := @decodeChunks_fails value maxDecodedBytes _ 0 decodes
    rw [runs]
    constructor
    · rintro ⟨chunks', ends, -⟩
      cases ends
    · rintro ⟨-, known⟩
      cases known
  | some decoded =>
    have fits := admits.decoded decoded decodes
    obtain ⟨chunks, runs, flat⟩ := @decodeChunks_decodes value maxDecodedBytes decoded _ 0 decodes
      (by rwa [Nat.zero_add])
    rw [runs]
    constructor
    · rintro ⟨chunks', ends, rfl⟩
      cases ends
      exact ⟨single, congrArg some flat.symm⟩
    · rintro ⟨-, known⟩
      cases known
      exact ⟨chunks, rfl, flat⟩

end Whole

/-- **Base64 in chunks is base64 of the whole.** Bytes and byte streams are encoded as a whole, a text
that is not empty is decoded in chunks just when it is decoded whole, the predicted number of bytes is
the number of bytes, and decoding undoes encoding. -/
theorem base64_in_chunks :
    (∀ chunks leading, encodeByteStreamBase64Chunks chunks leading = Base64.encode
      (leading ++ chunks.flatten)) ∧
    (∀ bytes leading, encodeBytesBase64Chunks bytes leading = leading ++ Base64.encode bytes) ∧
    ∀ value maxEncodedChars maxDecodedBytes startIndex,
      Admits value maxEncodedChars maxDecodedBytes startIndex → ∀ bytes,
        ((∃ chunks, iterStrictBase64DecodedChunks value maxEncodedChars maxDecodedBytes startIndex
            = (chunks, .ok ()) ∧ chunks.flatten = bytes) ↔
          (value.drop startIndex.toNat).length % 4 ≠ 1 ∧
            Base64.strictDecode (completed (value.drop startIndex.toNat)) = some bytes) ∧
        ((value.drop startIndex.toNat).length % 4 ≠ 1 →
          Base64.strictDecode (completed (value.drop startIndex.toNat)) = some bytes →
            predictedDecodedBase64Bytes (value.drop startIndex.toNat) = .ok bytes.length) ∧
        (value.drop startIndex.toNat = Base64.encode bytes → ∃ chunks,
          iterStrictBase64DecodedChunks value maxEncodedChars maxDecodedBytes startIndex =
            (chunks, .ok ()) ∧
            chunks.flatten = bytes) := by
  refine ⟨fun chunks leading => encodedParts_eq chunks leading, fun bytes leading => ?_, ?_⟩
  · rw [encodeBytesBase64Chunks, encodeBytes_from]
    rfl
  intro value maxEncodedChars maxDecodedBytes startIndex admits bytes
  have fromStart := admits.fromStart
  have before := admits.some_
  have some_ : value.drop startIndex.toNat ≠ [] := by
    rw [← List.length_pos_iff, List.length_drop]
    omega
  refine ⟨iter_decodes_iff admits bytes, fun single decodes => predicted_eq some_ single decodes,
    fun encoded => ?_⟩
  rw [iter_decodes_iff admits, encoded, completed_whole (Base64.encode_whole bytes)]
  refine ⟨?_, Base64.strictDecode_encode bytes⟩
  have whole := Base64.encode_whole bytes
  omega

/-! The letters of two bytes, without `=`, are decoded, and the empty text is not. -/

theorem base64_in_chunks_text : predictedDecodedBase64Bytes (Utf8.points "aGk") = .ok 2 ∧ ∃ chunks,
    iterStrictBase64DecodedChunks (Utf8.points "aGk") 3 2 = (chunks, .ok ()) ∧ chunks.flatten =
      [104, 105] := by
  have decodes : Base64.strictDecode (completed ((Utf8.points "aGk").drop (0 : ℤ).toNat)) = some
      [104, 105] := by
    decide
  have admits : Admits (Utf8.points "aGk") 3 2 0 := by
    refine ⟨le_rfl, by decide, by decide, fun bytes decoded => ?_⟩
    rw [decodes] at decoded
    cases decoded
    decide
  obtain ⟨whole, predicted, -⟩ := base64_in_chunks.2.2 _ _ _ _ admits [104, 105]
  exact ⟨predicted (by decide) decodes, whole.mpr ⟨by decide, decodes⟩⟩

theorem empty_not_decoded : Base64.strictDecode (completed []) = some [] ∧ ([] : PyText).length % 4 ≠ 1 ∧
    ¬ ∃ chunks, iterStrictBase64DecodedChunks [] 1024 1024 = (chunks, .ok ()) := by
  refine ⟨rfl, by decide, ?_⟩
  rintro ⟨chunks, ends⟩
  cases ends

end UniApi.Providers.Base64Chunks
