/-
**Thought signatures in tool-call ids.**

The id of a Gemini call holds its thought signature in URL-safe base64, and a nonce. It is decoded
leniently, so that other ids may have a signature too.

* `base64Url_eq`: the letters of the id;
* `functionCallId_eq`: the id of a signature;
* `decode_functionCallId`, `decode_holds`: what is decoded;
* `signature_round_trip`: both.
-/

import UniApi.Lib.Base64
import UniApi.Providers.GeminiAnswers

namespace UniApi.Providers

open UniApi.Lib UniApi.Streaming

/-! ### The source -/

/-- The longest tool-call id that is decoded. -/
def maxToolCallIdLength : ℕ := (Utf8.points "call_").length + (thoughtSignatureMaxBytes + 2) / 3 * 4 + 33

/-- The translation of `base64.urlsafe_b64decode`. -/
def urlsafe (sign : CodePoint) : CodePoint :=
  if sign = 45 then 43 else if sign = 95 then 47 else sign

/-- `encoded.split(".", 1)[0]`, if there is a point. -/
def firstSegment (encoded : PyText) : PyText :=
  ((PyText.splitOnce (Utf8.points ".") encoded).map Prod.fst).getD encoded

/-- `_decode_gemini_thought_signature_from_tool_call_id`. -/
def decodeGeminiThoughtSignatureFromToolCallId (toolCallId : Option PyText) : Option PyText :=
  match toolCallId with
  | none => none
  | some id =>
    if !(Utf8.points "call_").isPrefixOf id then none
    else if maxToolCallIdLength < id.length then none
    else
      let encoded := firstSegment (id.drop (Utf8.points "call_").length)
      if encoded.isEmpty then none
      else
        let padded := encoded ++ Base64.padding encoded.length
        if padded.all (· < 128) then
          match Base64.lenientDecode (padded.map urlsafe) with
          | none => none
          | some decoded =>
            if thoughtSignatureMaxBytes < decoded.length then none else Utf8.decodeAll decoded
        else none

/-! ### Segments -/

theorem splitOnce_cons (letter : CodePoint) (text : PyText) :
    PyText.splitOnce (Utf8.points ".") (letter :: text) = if letter = 46 then some ([], text)
      else (PyText.splitOnce (Utf8.points ".") text).map fun parts => (letter :: parts.1, parts.2) := by
  have same : (Utf8.points ".").isPrefixOf (letter :: text) = true ↔ letter = 46 := by
    rw [List.isPrefixOf_iff_prefix, show Utf8.points "." = [46] from rfl, List.cons_prefix_cons]
    exact ⟨fun both => both.1.symm, fun point => ⟨point.symm, List.nil_prefix⟩⟩
  rw [PyText.splitOnce]
  by_cases point : letter = 46
  · rw [if_pos (same.mpr point), if_pos point]
    rfl
  · rw [if_neg (mt same.mp point), if_neg point]

theorem firstSegment_split (text : PyText) : ∃ suffix, text = firstSegment text ++ suffix ∧
    46 ∉ firstSegment text ∧ (suffix = [] ∨ suffix.head? = some 46) := by
  induction text with
  | nil => exact ⟨[], rfl, List.not_mem_nil, .inl rfl⟩
  | cons letter text ih =>
    obtain ⟨suffix, split, noPoint, behind⟩ := ih
    rw [firstSegment, splitOnce_cons]
    by_cases point : letter = 46
    · rw [if_pos point]
      exact ⟨letter :: text, rfl, List.not_mem_nil, .inr (congrArg some point)⟩
    · rw [if_neg point]
      have front : ((((PyText.splitOnce (Utf8.points ".") text).map fun parts =>
          (letter :: parts.1, parts.2)).map
          Prod.fst).getD (letter :: text)) = letter :: firstSegment text := by
        rw [firstSegment]
        cases PyText.splitOnce (Utf8.points ".") text <;> rfl
      rw [front]
      refine ⟨suffix, congrArg _ split, ?_, behind⟩
      rw [List.mem_cons, not_or]
      exact ⟨Ne.symm point, noPoint⟩

theorem firstSegment_append {segment : PyText} (rest : PyText) (noPoint : 46 ∉ segment) :
    firstSegment (segment ++ 46 :: rest) = segment := by
  have split : PyText.splitOnce (Utf8.points ".") (segment ++ 46 :: rest) = some (segment, rest) := by
    induction segment with
    | nil => rw [List.nil_append, splitOnce_cons, if_pos rfl]
    | cons letter segment ih =>
      rw [List.mem_cons, not_or] at noPoint
      rw [List.cons_append, splitOnce_cons, if_neg (Ne.symm noPoint.1), ih noPoint.2]
      rfl
  rw [firstSegment, split]
  rfl

/-! ### Letters -/

/-- The letter of a number in an id. -/
def urlLetter (value : Base64.Sextet) : CodePoint := base64Letter value

theorem urlLetter_sextet {value : ℕ} (small : value < 64) : urlLetter (Base64.sextet value)
    = base64Letter value := by
  rw [urlLetter, Base64.sextet_val small]

/-- **The letters of bytes in an id.** -/
theorem base64Url_eq : ∀ bytes : Bytes, base64Url bytes = (Base64.pack bytes).map urlLetter
  | first :: second :: third :: rest => by
    have bound := first.toNat_lt
    have bound' := second.toNat_lt
    have bound'' := third.toNat_lt
    rw [base64Url, Base64.pack, base64Url_eq rest]
    simp only [List.map_cons]
    rw [urlLetter_sextet (by omega), urlLetter_sextet (by omega), urlLetter_sextet (by omega)]
    rfl
  | [first, second] => by
    have bound := first.toNat_lt
    have bound' := second.toNat_lt
    rw [base64Url, Base64.pack]
    simp only [List.map_cons, List.map_nil]
    rw [urlLetter_sextet (by omega), urlLetter_sextet (by omega), urlLetter_sextet (by omega)]
  | [first] => by
    have bound := first.toNat_lt
    rw [base64Url, Base64.pack]
    simp only [List.map_cons, List.map_nil]
    rw [urlLetter_sextet (by omega), urlLetter_sextet (by omega)]
  | [] => rfl

theorem urlsafe_letter : ∀ value : Base64.Sextet, urlsafe (urlLetter value) = Base64.letter value := by
  decide

theorem urlLetter_ascii : ∀ value : Base64.Sextet, urlLetter value < 128 ∧ urlLetter value ≠ 46 := by decide

theorem urlsafe_sign {sign : CodePoint} (same : urlsafe sign = 61) : sign = 61 := by
  rw [urlsafe] at same
  split_ifs at same
  · cases same
  · cases same
  · exact same

theorem padding_urlsafe (length : ℕ) : (Base64.padding length).map urlsafe = Base64.padding length := by
  rw [Base64.padding, List.map_replicate]
  rfl

/-! ### The id of a signature -/

theorem toChunks_go {α : Type} {size : ℕ} : ∀ {text : List α} {chunk : Array α} {chunks : Array (List α)},
    chunk.size + text.length ≤ size →
      List.toChunks.go size text chunk chunks = (chunks.push (chunk.toList ++ text)).toList
  | [], chunk, chunks, _ => by
    rw [List.toChunks.go, List.append_nil]
  | letter :: text, chunk, chunks, fits => by
    rw [List.length_cons] at fits
    have notFull : ¬ (chunk.size == size) = true := by
      rw [beq_iff_eq]
      omega
    have front : (chunk.push letter).toList ++ text = chunk.toList ++ letter :: text := by
      rw [Array.toList_push, List.append_assoc]
      rfl
    rw [List.toChunks.go, if_neg notFull, toChunks_go (by rw [Array.size_push]; omega), front]

theorem toChunks_short {α : Type} {size : ℕ} {text : List α} (some_ : text ≠ [])
    (fits : text.length ≤ size) :
    text.toChunks size = [text] := by
  cases text with
  | nil => exact absurd rfl some_
  | cons letter text =>
    rw [List.length_cons] at fits
    cases size with
    | zero => exact absurd fits (Nat.not_succ_le_zero _)
    | succ size =>
      rw [List.toChunks, toChunks_go (by simpa [Nat.add_comm] using fits)]
      · rfl
      · exact Nat.succ_ne_zero size

theorem length_le_encode (text : List Char) : text.length ≤ (Utf8.encode text).length := by
  induction text with
  | nil => exact le_rfl
  | cons letter text ih =>
    have positive : 0 < (String.utf8EncodeChar letter).length := by
      rw [String.length_utf8EncodeChar]
      exact Char.utf8Size_pos letter
    rw [Utf8.encode_cons, List.length_append, List.length_cons]
    omega

theorem boundedUtf8Size_fits {signature : PyText} {bytes : Bytes} (some_ : signature ≠ [])
    (encodes : Utf8.encodePoints signature = some bytes) (fits : bytes.length ≤ thoughtSignatureMaxBytes) :
    boundedUtf8Size signature thoughtSignatureMaxBytes = .ok bytes.length := by
  obtain ⟨text, rfl, rfl⟩ := Utf8.encodePoints_eq_some_iff.mp encodes
  have shorter := length_le_encode text
  have short : (text.map Char.toNat).length ≤ thoughtSignatureMaxBytes := by
    rw [List.length_map]
    omega
  rw [boundedUtf8Size, if_neg (not_lt.mpr short), @toChunks_short _ hashChunkChars _ some_ short,
    boundedUtf8SizeFrom,
    encodes]
  dsimp only
  rw [Nat.zero_add, if_neg (not_lt.mpr fits)]
  rfl

/-- **The id of a signature.** -/
theorem functionCallId_eq {signature uuid : PyText} {bytes : Bytes} (some_ : signature ≠ [])
    (encodes : Utf8.encodePoints signature = some bytes) (fits : bytes.length ≤ thoughtSignatureMaxBytes) :
    functionCallId uuid (.str signature)
      = .ok (some (Utf8.points "call_" ++ base64Url bytes ++ Utf8.points "." ++ uuid)) := by
  cases signature with
  | nil => exact absurd rfl some_
  | cons letter signature =>
    have size := boundedUtf8Size_fits some_ encodes fits
    rw [functionCallId]
    show (boundedUtf8Size (letter :: signature) thoughtSignatureMaxBytes >>= _) = _
    rw [size]
    show (if thoughtSignatureMaxBytes < bytes.length then _ else _) = _
    rw [if_neg (not_lt.mpr fits), encodes]

theorem functionCallId_length {uuid : PyText} {bytes : Bytes}
    (fits : bytes.length ≤ thoughtSignatureMaxBytes)
    (nonce : uuid.length = 32) : (Utf8.points "call_" ++ base64Url bytes ++ Utf8.points "." ++ uuid).length
      ≤ maxToolCallIdLength := by
  simp only [List.length_append, base64Url_eq, List.length_map, Base64.pack_length, nonce]
  rw [maxToolCallIdLength, show (Utf8.points ".").length = 1 from rfl]
  unfold thoughtSignatureMaxBytes at fits ⊢
  omega

/-- **The id of a signature is decoded to the signature.** -/
theorem decode_functionCallId {signature uuid : PyText} {bytes : Bytes} (some_ : signature ≠ [])
    (encodes : Utf8.encodePoints signature = some bytes) (fits : bytes.length ≤ thoughtSignatureMaxBytes)
    (nonce : uuid.length = 32) :
    decodeGeminiThoughtSignatureFromToolCallId
      (some (Utf8.points "call_" ++ base64Url bytes ++ Utf8.points "." ++ uuid))
      = some signature := by
  have long := functionCallId_length fits nonce
  have noPoint : 46 ∉ base64Url bytes := by
    rw [base64Url_eq, List.mem_map]
    rintro ⟨value, -, same⟩
    exact (urlLetter_ascii value).2 same
  have segment : firstSegment ((Utf8.points "call_" ++ base64Url bytes ++ Utf8.points "." ++ uuid).drop
      (Utf8.points "call_").length) = base64Url bytes := by
    rw [List.append_assoc, List.append_assoc, List.drop_left]
    exact firstSegment_append uuid noPoint
  have nonempty : (base64Url bytes).isEmpty = false := by
    cases bytes with
    | nil =>
      obtain ⟨text, rfl, same⟩ := Utf8.encodePoints_eq_some_iff.mp encodes
      have short := length_le_encode text
      rw [← same] at short
      exact absurd (List.map_eq_nil_iff.mpr (List.eq_nil_of_length_eq_zero (Nat.le_zero.mp short))) some_
    | cons byte bytes =>
      rw [List.isEmpty_eq_false_iff, base64Url_eq, ← List.length_pos_iff, List.length_map,
        Base64.pack_length,
        List.length_cons]
      omega
  have ascii : (base64Url bytes ++ Base64.padding (base64Url bytes).length).all (· < 128) = true := by
    rw [List.all_eq_true]
    intro sign among
    rw [List.mem_append, base64Url_eq, List.mem_map] at among
    rcases among with ⟨value, -, rfl⟩ | isSign
    · exact decide_eq_true (urlLetter_ascii value).1
    · rw [List.eq_of_mem_replicate isSign]
      rfl
  have decodes : Base64.lenientDecode ((base64Url bytes ++ Base64.padding
      (base64Url bytes).length).map urlsafe)
      = some bytes := by
    have letters : (base64Url bytes).map urlsafe = (Base64.pack bytes).map Base64.letter := by
      rw [base64Url_eq, List.map_map]
      exact List.map_congr_left fun value _ => urlsafe_letter value
    have length : (base64Url bytes).length = (Base64.pack bytes).length := by
      rw [base64Url_eq, List.length_map]
    rw [List.map_append, padding_urlsafe, letters, length, Base64.lenientDecode_letters, Base64.unpack_pack]
    rw [Base64.pack_length]
    omega
  have isId : (Utf8.points "call_").isPrefixOf
      (Utf8.points "call_" ++ base64Url bytes ++ Utf8.points "." ++ uuid)
      = true := by
    rw [List.isPrefixOf_iff_prefix, List.append_assoc, List.append_assoc]
    exact List.prefix_append _ _
  rw [decodeGeminiThoughtSignatureFromToolCallId]
  dsimp only
  rw [isId, Bool.not_true, if_neg Bool.false_ne_true, if_neg (not_lt.mpr long), segment, nonempty,
    if_neg Bool.false_ne_true, if_pos ascii, decodes]
  dsimp only
  rw [if_neg (not_lt.mpr fits)]
  obtain ⟨text, rfl, rfl⟩ := Utf8.encodePoints_eq_some_iff.mp encodes
  exact Utf8.decodeAll_encode text

/-! ### Other ids -/

/-- The number of a letter of an id, as the decoder reads it. -/
def urlValue (sign : CodePoint) : Option Base64.Sextet := Base64.valueOf (urlsafe sign)

/-- What is read of a segment that is filled up. -/
theorem read_segment {segment : PyText} {bytes : Bytes}
    (decodes : Base64.lenientDecode ((segment ++ Base64.padding segment.length).map urlsafe) = some bytes) :
    ∃ part, part <+: segment ∧ (part = segment ∨ 61 ∈ segment) ∧
      (part.filterMap urlValue).length % 4 ≠ 1 ∧ Base64.unpack (part.filterMap urlValue) = bytes := by
  obtain ⟨front, isFront, some_, unpacks⟩ := Base64.lenientFrom_some decodes
  rw [List.nil_append] at some_ unpacks
  rw [List.map_append, padding_urlsafe] at isFront
  have split : ∃ tail, segment.map urlsafe ++ Base64.padding segment.length = front ++ tail ∧
      (tail = [] ∨ tail.head? = some 61) := by
    rcases isFront with rfl | ⟨tail, same⟩
    · exact ⟨[], (List.append_nil _).symm, .inl rfl⟩
    · exact ⟨61 :: tail, by rw [← same, List.append_assoc]; rfl, .inr rfl⟩
  obtain ⟨tail, same, behind⟩ := split
  rcases List.append_eq_append_iff.mp same with ⟨more, rfl, pads⟩ | ⟨more, cut, rfl⟩
  · -- the padding is read too, and it has no letters
    have noLetters : more.filterMap Base64.valueOf = [] := by
      rw [List.filterMap_eq_nil_iff]
      intro sign among
      have isPad : sign ∈ Base64.padding segment.length := by
        rw [pads]
        exact List.mem_append_left _ among
      rw [List.eq_of_mem_replicate isPad]
      rfl
    rw [List.filterMap_append, noLetters, List.append_nil, List.filterMap_map] at some_ unpacks
    exact ⟨segment, List.prefix_rfl, .inl rfl, some_, unpacks⟩
  · obtain ⟨part, rest, rfl, isPart, isRest⟩ := List.map_eq_append_iff.mp cut
    rw [← isPart, List.filterMap_map] at some_ unpacks
    refine ⟨part, List.prefix_append _ _, ?_, some_, unpacks⟩
    cases rest with
    | nil => exact .inl (List.append_nil part).symm
    | cons sign rest =>
      rw [← isRest, List.map_cons] at behind
      refine .inr (List.mem_append_right _ ?_)
      rcases behind with none_ | isSign
      · cases none_
      · rw [urlsafe_sign (Option.some.inj isSign)]
        exact List.mem_cons_self

/-- **The id of a signature, up to what is left out.** Its letters, `+` and `/` read as `-` and `_`, are
those of the signature, but for the unused bits of the last one. Other characters are left out, and so is
what is behind a sign that fills up the letters. -/
def HoldsSignature (id : PyText) (bytes : Bytes) : Prop :=
  ∃ segment suffix part, id = Utf8.points "call_" ++ segment ++ suffix ∧ 46 ∉ segment ∧
    (suffix = [] ∨ suffix.head? = some 46) ∧ part <+: segment ∧ (part = segment ∨ 61 ∈ segment) ∧
      Base64.SameButLast ((part.filterMap urlValue).map urlLetter) (base64Url bytes) ∧
        Base64.unpack (part.filterMap urlValue) = bytes

/-- **An id with a signature is that of the signature**, up to what is left out. -/
theorem decode_holds {id signature : PyText} (decodes : decodeGeminiThoughtSignatureFromToolCallId
    (some id) = some signature) :
    ∃ bytes, Utf8.encodePoints signature = some bytes ∧ HoldsSignature id bytes := by
  rw [decodeGeminiThoughtSignatureFromToolCallId] at decodes
  dsimp only at decodes
  split_ifs at decodes with isOther long empty ascii
  cases lenient : Base64.lenientDecode ((firstSegment (id.drop (Utf8.points "call_").length)
      ++ Base64.padding (firstSegment (id.drop (Utf8.points "call_").length)).length).map urlsafe) with
  | none =>
    rw [lenient] at decodes
    cases decodes
  | some bytes =>
    rw [lenient] at decodes
    dsimp only at decodes
    split_ifs at decodes with large
    obtain ⟨text, rfl, rfl⟩ := Utf8.decodeAll_eq_some_iff.mp decodes
    refine ⟨_, Utf8.encodePoints_toNat text, ?_⟩
    obtain ⟨suffix, split, noPoint, behind⟩ := firstSegment_split (id.drop (Utf8.points "call_").length)
    obtain ⟨part, isPart, whole, some_, unpacks⟩ := read_segment lenient
    have isId : Utf8.points "call_" <+: id := by
      rw [Bool.not_eq_true, Bool.not_eq_false'] at isOther
      exact List.isPrefixOf_iff_prefix.mp isOther
    refine ⟨_, suffix, part, ?_, noPoint, behind, isPart, whole, ?_, unpacks⟩
    · rw [List.append_assoc, ← split]
      exact (List.prefix_append_drop isId)
    · have same := (Base64.pack_unpack some_).map urlLetter
      rwa [unpacks, ← base64Url_eq] at same

/-- **Signatures in ids.** The id of a signature is short enough to be decoded, and it is decoded to the
signature; and an id that is decoded to a signature holds it. -/
theorem signature_round_trip :
    (∀ signature bytes uuid, signature ≠ [] → Utf8.encodePoints signature = some bytes →
      bytes.length ≤ thoughtSignatureMaxBytes → uuid.length = 32 → ∃ id,
        functionCallId uuid (.str signature) = .ok (some id) ∧ id.length ≤ maxToolCallIdLength ∧
          decodeGeminiThoughtSignatureFromToolCallId (some id) = some signature) ∧
    ∀ id signature, decodeGeminiThoughtSignatureFromToolCallId (some id) = some signature → ∃ bytes,
      Utf8.encodePoints signature = some bytes ∧ HoldsSignature id bytes := by
  refine ⟨fun signature bytes uuid some_ encodes fits nonce => ?_, fun id signature decodes =>
    decode_holds decodes⟩
  exact ⟨_, functionCallId_eq some_ encodes fits, functionCallId_length fits nonce,
    decode_functionCallId some_ encodes fits nonce⟩

/-! A signature in an id, and an id with other unused bits. -/

theorem signature_round_trip_letter : ∃ id, functionCallId (List.replicate 32 97) (.str [65]) = .ok
    (some id) ∧
    decodeGeminiThoughtSignatureFromToolCallId (some id) = some [65] ∧ ∃ bytes, HoldsSignature
      (Utf8.points "call_QR.0") bytes := by
  obtain ⟨id, isId, -, decodes⟩ := signature_round_trip.1 [65] [65] (List.replicate 32 97)
    (by decide) (by decide)
    (by decide) rfl
  obtain ⟨bytes, -, holds⟩ := signature_round_trip.2 (Utf8.points "call_QR.0") [65] (by decide)
  exact ⟨id, isId, decodes, bytes, holds⟩

theorem other_bits_decoded : decodeGeminiThoughtSignatureFromToolCallId
    (some (Utf8.points "call_QR")) = some [65] ∧
    Utf8.encodePoints [65] = some [65] ∧
    ¬ ∃ suffix, Utf8.points "call_QR" = Utf8.points "call_" ++ base64Url [65] ++ suffix := by
  refine ⟨by decide, by decide, ?_⟩
  rintro ⟨suffix, same⟩
  exact absurd (List.append_cancel_left ((List.append_assoc _ _ _).symm.trans same.symm :
    Utf8.points "call_" ++ (base64Url [65] ++ suffix) = Utf8.points "call_" ++ Utf8.points "QR")) (by
      intro letters
      cases letters)

end UniApi.Providers
