/-
**The JSON memory estimator on JSON documents.**

* `Mirrors`: the scanner's state beside the counter of a text;
* `letter_mirrors`: the bytes of a letter do to the scanner what the letter does to the counter;
* `estimateJsonText_iff`: a text in slices, and its bytes at once;
* `feedsAll_eq`: the estimator with the extension, where the bytes are fewer than `2 ^ 64`;
* `estimator_exact`: what the estimator has counted behind a document, and that its cuts do not
  matter.
-/

import UniApi.Admission.JsonAgreement
import UniApi.Lib.JsonTally
import UniApi.Lib.LineEndings

namespace UniApi.Admission.JsonMemory

open UniApi.Lib
open UniApi.Lib.Json (Tally isSpace)

/-- **The scanner has counted** what the counter has. -/
structure Mirrors (tally : Tally) (state : ScanState) : Prop where
  tokens : state.tokens = tally.tokens
  depth : state.depth = tally.depth
  peak : state.peakDepth = tally.peak
  inString : state.inString = tally.inString
  escaped : state.escaped = tally.escaped
  scalar : state.scalarActive = tally.inWord

/-- A byte and the ASCII letter it stands for. -/
structure Stands (byte : UInt8) (letter : CodePoint) : Prop where
  eq_iff : ∀ sign : UInt8, byte = sign ↔ letter = sign.toNat

section Letters

variable {byte : UInt8} {letter : CodePoint} {tally : Tally} {state : ScanState}

theorem stands_toNat (byte : UInt8) : Stands byte byte.toNat :=
  ⟨fun _ => ⟨congrArg UInt8.toNat, UInt8.toNat_inj.mp⟩⟩

theorem isOutsideSpecial_toNat (byte : UInt8) :
    isOutsideSpecial byte = decide (byte.toNat = 34 ∨ (byte.toNat = 123 ∨ byte.toNat = 91) ∨
      (byte.toNat = 125 ∨ byte.toNat = 93) ∨ isSpace byte.toNat = true ∨ byte.toNat
        = 44 ∨ byte.toNat = 58) := by
  have same := (stands_toNat byte).eq_iff
  rw [Bool.eq_iff_iff, decide_eq_true_iff]
  simp only [isOutsideSpecial, isSpace, Bool.or_eq_true, beq_iff_eq, same]
  show (((((((((((byte.toNat = 34) ∨ byte.toNat = 123) ∨ byte.toNat = 125) ∨ byte.toNat = 91) ∨
    byte.toNat = 93) ∨ byte.toNat = 32) ∨ byte.toNat = 9) ∨ byte.toNat = 10) ∨ byte.toNat = 13) ∨
      byte.toNat = 44) ∨ byte.toNat = 58) ↔ _
  tauto

/-- **A byte** does to the scanner what its code does to the counter. -/
theorem next_mirrors (mirrors : Mirrors tally state) (byte : UInt8) :
    Mirrors (tally.next byte.toNat) (next byte state) := by
  obtain ⟨tokens, depth, peak, inString, escaped, scalar⟩ := mirrors
  have same := (stands_toNat byte).eq_iff
  have backslash : byte = 0x5C ↔ byte.toNat = 92 := same 0x5C
  have quote : byte = 0x22 ↔ byte.toNat = 34 := same 0x22
  have opens : byte = 0x7B ∨ byte = 0x5B ↔ byte.toNat = 123 ∨ byte.toNat = 91 :=
    or_congr (same 0x7B) (same 0x5B)
  have closes : byte = 0x7D ∨ byte = 0x5D ↔ byte.toNat = 125 ∨ byte.toNat = 93 :=
    or_congr (same 0x7D) (same 0x5D)
  have special := isOutsideSpecial_toNat byte
  cases flag : tally.inString with
  | true =>
    have inside : state.inString = true := inString.trans flag
    rw [next, if_pos inside, Tally.next, if_pos flag]
    by_cases behind : tally.escaped = true
    · rw [if_pos behind, if_pos (escaped.trans behind)]
      exact ⟨tokens, depth, peak, inString, rfl, scalar⟩
    have unescaped : ¬ state.escaped = true := by
      rw [escaped]
      exact behind
    rw [if_neg behind, if_neg unescaped]
    by_cases isBackslash : byte.toNat = 92
    · rw [if_pos isBackslash, if_pos (backslash.mpr isBackslash)]
      exact ⟨tokens, depth, peak, inString, rfl, scalar⟩
    rw [if_neg isBackslash, if_neg fun is => isBackslash (backslash.mp is)]
    by_cases isQuote : byte.toNat = 34
    · rw [if_pos isQuote, if_pos (quote.mpr isQuote)]
      exact ⟨tokens, depth, peak, rfl, escaped, scalar⟩
    · rw [if_neg isQuote, if_neg fun is => isQuote (quote.mp is)]
      exact ⟨tokens, depth, peak, inString, escaped, scalar⟩
  | false =>
    have outside : ¬ state.inString = true := by
      rw [inString, flag]
      exact Bool.false_ne_true
    rw [next, if_neg outside, Json.tally_outside flag, special]
    by_cases isQuote : byte.toNat = 34
    · rw [if_pos isQuote, if_pos (decide_eq_true (.inl isQuote)), if_pos (quote.mpr isQuote)]
      exact ⟨congrArg (· + 1) tokens, depth, peak, rfl, escaped, rfl⟩
    by_cases isOpen : byte.toNat = 123 ∨ byte.toNat = 91
    · rw [if_neg isQuote, if_pos isOpen, if_pos (decide_eq_true (.inr (.inl isOpen))),
        if_neg fun is => isQuote (quote.mp is), if_pos (opens.mpr isOpen)]
      refine ⟨congrArg (· + 1) tokens, congrArg (· + 1) depth, ?_, inString, escaped, rfl⟩
      exact congrArg₂ max peak (congrArg (· + 1) depth)
    by_cases isClose : byte.toNat = 125 ∨ byte.toNat = 93
    · rw [if_neg isQuote, if_neg isOpen, if_pos isClose,
        if_pos (decide_eq_true (.inr (.inr (.inl isClose)))), if_neg fun is => isQuote
          (quote.mp is),
        if_neg fun is => isOpen (opens.mp is), if_pos (closes.mpr isClose)]
      exact ⟨tokens, congrArg (· - 1) depth, peak, inString, escaped, rfl⟩
    by_cases separates : isSpace byte.toNat = true ∨ byte.toNat = 44 ∨ byte.toNat = 58
    · rw [if_neg isQuote, if_neg isOpen, if_neg isClose, if_pos separates,
        if_pos (decide_eq_true (.inr (.inr (.inr separates)))), if_neg fun is => isQuote
          (quote.mp is),
        if_neg fun is => isOpen (opens.mp is), if_neg fun is => isClose (closes.mp is)]
      exact ⟨tokens, depth, peak, inString, escaped, rfl⟩
    · have plain : ¬ (byte.toNat = 34 ∨ (byte.toNat = 123 ∨ byte.toNat = 91) ∨
          (byte.toNat = 125 ∨ byte.toNat = 93) ∨
            isSpace byte.toNat = true ∨ byte.toNat = 44 ∨ byte.toNat = 58) := by
        rintro (is | is | is | is)
        · exact isQuote is
        · exact isOpen is
        · exact isClose is
        · exact separates is
      rw [if_neg isQuote, if_neg isOpen, if_neg isClose, if_neg separates, decide_eq_false plain,
        if_neg Bool.false_ne_true]
      by_cases word : tally.inWord = true
      · rw [if_pos word, if_pos (scalar.trans word)]
        exact ⟨tokens, depth, peak, inString, escaped, scalar⟩
      · have idle : ¬ state.scalarActive = true := by
          rw [scalar]
          exact word
        rw [if_neg word, if_neg idle]
        exact ⟨congrArg (· + 1) tokens, depth, peak, inString, escaped, rfl⟩

theorem nexts_mirrors_codes (bytes : Bytes) (mirrors : Mirrors tally state) :
    Mirrors ((bytes.map UInt8.toNat).foldl Tally.next tally) (nexts bytes state) := by
  induction bytes generalizing tally state with
  | nil => exact mirrors
  | cons byte rest ih => exact ih (next_mirrors mirrors byte)

theorem next_wide (wide : 128 ≤ letter) : tally.next letter =
    if tally.inString = true then { tally with escaped := false }
    else if tally.inWord = true then tally
    else { tally with tokens := tally.tokens + 1, inWord := true } := by
  have other : ∀ sign < 128, letter ≠ sign := fun sign small same =>
    absurd (same ▸ wide) (Nat.not_le_of_gt small)
  by_cases inside : tally.inString = true
  · rw [Tally.next, if_pos inside, if_neg (other 92 (by decide)), if_neg (other 34 (by decide)),
      if_pos inside]
    by_cases behind : tally.escaped = true
    · rw [if_pos behind]
    · have bare : tally.escaped = false := Bool.eq_false_iff.mpr behind
      rw [if_neg behind, ← bare]
  · have plain : ¬ (isSpace letter = true ∨ letter = 44 ∨ letter = 58) := by
      rintro (space | same | same)
      · have cases : letter = 32 ∨ letter = 9 ∨ letter = 10 ∨ letter = 13 := by
          simpa [isSpace, or_assoc] using space
        rcases cases with same | same | same | same <;> exact other _ (by decide) same
      all_goals exact other _ (by decide) same
    have opens : ¬ (letter = 123 ∨ letter = 91) := by
      rintro (same | same) <;> exact other _ (by decide) same
    have closes : ¬ (letter = 125 ∨ letter = 93) := by
      rintro (same | same) <;> exact other _ (by decide) same
    rw [Json.tally_outside (Bool.eq_false_iff.mpr inside), if_neg (other 34 (by decide)), if_neg
      opens,
      if_neg closes, if_neg plain, if_neg inside]

theorem next_wide_wide {first second : CodePoint} (wide : 128 ≤ first) (wide' : 128 ≤ second)
    (tally : Tally) : (tally.next first).next second = tally.next first := by
  rw [next_wide wide', next_wide wide]
  by_cases inside : tally.inString = true
  · rw [if_pos inside]
    exact if_pos inside
  rw [if_neg inside]
  by_cases word : tally.inWord = true
  · rw [if_pos word, if_neg inside, if_pos word]
  · rw [if_neg word]
    exact (if_neg inside).trans (if_pos rfl)

theorem foldl_wide {first : CodePoint} (wide : 128 ≤ first) (rest : List CodePoint)
    (all : ∀ letter ∈ rest, 128 ≤ letter) (tally : Tally) :
    rest.foldl Tally.next (tally.next first) = tally.next first := by
  induction rest with
  | nil => rfl
  | cons second rest ih =>
    rw [List.foldl_cons, next_wide_wide wide (all second List.mem_cons_self)]
    exact ih fun other there => all other (List.mem_cons_of_mem _ there)

/-- **A letter** does to the counter what its bytes do to the scanner. -/
theorem letter_mirrors (letter : Char) (mirrors : Mirrors tally state) :
    Mirrors (tally.next letter.toNat) (nexts (String.utf8EncodeChar letter) state) := by
  have codes := nexts_mirrors_codes (String.utf8EncodeChar letter) mirrors
  rcases Nat.lt_or_ge letter.toNat 128 with ascii | wide
  · have small : ∀ other ∈ [letter], other.toNat < 128 := fun other there =>
      List.mem_singleton.mp there ▸ ascii
    have single := Utf8.encode_ascii small
    rw [Utf8.encode_cons, Utf8.encode_nil, List.append_nil] at single
    rw [single] at codes ⊢
    have same : (UInt8.ofNat letter.toNat).toNat = letter.toNat := Utf8.toNat_ofNat_small (by omega)
    rw [List.map_cons, List.map_nil, List.map_cons, List.map_nil, List.foldl_cons,
      List.foldl_nil, same] at codes
    exact codes
  · have wideBytes : ∀ code ∈ (String.utf8EncodeChar letter).map UInt8.toNat, 128 ≤ code := by
      intro code there
      obtain ⟨byte, inside, rfl⟩ := List.mem_map.mp there
      by_contra small
      have same := (mem_encodeChar_ascii (by omega)).mp inside
      omega
    have some : (String.utf8EncodeChar letter).map UInt8.toNat ≠ [] := by
      intro nothing
      have length := String.length_utf8EncodeChar letter
      rw [List.map_eq_nil_iff.mp nothing] at length
      have size := letter.utf8Size_pos
      rw [List.length_nil] at length
      omega
    obtain ⟨first, rest, isCodes⟩ := List.exists_cons_of_ne_nil some
    rw [isCodes] at codes wideBytes
    have firstWide := wideBytes first List.mem_cons_self
    rw [List.foldl_cons, foldl_wide firstWide rest
      fun other there => wideBytes other (List.mem_cons_of_mem _ there)] at codes
    rw [next_wide wide, ← next_wide firstWide]
    exact codes

/-- **A text** does to the counter what its bytes do to the scanner. -/
theorem text_mirrors (text : List Char) (mirrors : Mirrors tally state) :
    Mirrors ((text.map Char.toNat).foldl Tally.next tally) (nexts (Utf8.encode text) state) := by
  induction text generalizing tally state with
  | nil => exact mirrors
  | cons letter rest ih =>
    rw [Utf8.encode_cons, nexts_append]
    exact ih (letter_mirrors letter mirrors)

end Letters

/-! ### Documents -/

/-- Some chunk raises. -/
def Refused (limits : Limits) (chunks : List Bytes) : Prop :=
  ∃ error after, feeds limits chunks {} = (.error error, after)

theorem shallow_start (limits : Limits) : Shallow limits {} := ⟨Nat.zero_le _, Nat.zero_le _⟩

theorem light_start (limits : Limits) :
    ({} : ScanState).estimatedBytes limits ≤ limits.maxEstimatedBytes := by
  show 0 * _ + 0 * _ ≤ _
  rw [Nat.zero_mul, Nat.zero_mul]
  exact Nat.zero_le _

/-- **Some chunk raises** exactly where the bytes do not fit. -/
theorem refused_iff (limits : Limits) (chunks : List Bytes) :
    Refused limits chunks ↔ ¬ Fits limits {} chunks.flatten := by
  rcases feeds_cases chunks (shallow_start limits) (light_start limits) with ⟨fits, fed⟩ |
    ⟨beyond, raised⟩
  · refine iff_of_false ?_ (not_not.mpr fits)
    rintro ⟨error, after, raised⟩
    rw [fed] at raised
    cases raised
  · exact iff_of_true raised beyond

/-! ### Texts -/

/-- `_TEXT_SCAN_CHUNK_CHARACTERS`. -/
def textScanChunkCharacters : ℕ := 256 * 1024

/-- A text in slices. -/
def textSlices (text : List Char) : List (List Char) :=
  if text.isEmpty then []
  else text.take textScanChunkCharacters :: textSlices (text.drop textScanChunkCharacters)
termination_by text.length
decreasing_by
  rename_i some_
  have positive : 0 < text.length := List.length_pos_iff.mpr fun nothing => some_ (nothing ▸ rfl)
  rw [List.length_drop, textScanChunkCharacters]
  omega

/-- `estimate_json_text_memory_bytes`. -/
def estimateJsonTextMemoryBytes (limits : Limits) (text : List Char) :
    Except ComplexityError JsonMemorySnapshot :=
  match feeds limits ((textSlices text).map Utf8.encode) {} with
  | (.error error, _) => .error error
  | (.ok (), state) => .ok (snapshot limits state)

theorem textSlices_encode (text : List Char) :
    ((textSlices text).map Utf8.encode).flatten = Utf8.encode text := by
  fun_induction textSlices text with
  | case1 text empty =>
    rw [List.isEmpty_iff.mp empty]
    rfl
  | case2 text some_ ih =>
    rw [List.map_cons, List.flatten_cons, ih, ← Utf8.encode_append, List.take_append_drop]

/-- **A text** is accepted where its bytes are, with the same estimate. -/
theorem estimateJsonText_iff (limits : Limits) (text : List Char) (snap : JsonMemorySnapshot) :
    estimateJsonTextMemoryBytes limits text = .ok snap ↔
      estimateJsonMemoryBytes limits (Utf8.encode text) = .ok snap := by
  have slices := feeds_cases ((textSlices text).map Utf8.encode) (shallow_start limits)
    (light_start limits)
  rw [textSlices_encode] at slices
  unfold estimateJsonTextMemoryBytes estimateJsonMemoryBytes
  rcases slices with ⟨fits, fed⟩ | ⟨beyond, error, after, raised⟩
  · rcases feedPython_cases (Utf8.encode text) (shallow_start limits) with
      ⟨-, estimate, whole⟩ | ⟨unfit, -⟩
    · rw [fed, whole]
    · exact absurd fits unfit
  · rcases feedPython_cases (Utf8.encode text) (shallow_start limits) with
      ⟨fits, -⟩ | ⟨-, error', after', whole⟩
    · exact absurd fits beyond
    · rw [raised, whole]
      exact iff_of_false (fun same => by cases same) fun same => by cases same

/-! ### Documents in chunks -/

/-- Chunks one after the other into an estimator, until one raises. -/
def feedsAll (memchr2 : UInt8 → UInt8 → Bytes → Option ℕ) (limits : Limits) :
    List Bytes → Raise FeedError Estimator Unit
  | [] => pure ()
  | chunk :: rest => do
    let _ ← feed memchr2 limits chunk
    feedsAll memchr2 limits rest

/-- **The estimator** ends as the scanner does, if it does the same with every chunk. -/
theorem feedsAll_eq {memchr2 : UInt8 → UInt8 → Bytes → Option ℕ} {limits : Limits}
    (chunks : List Bytes) {estimator : Estimator}
    (same : (trace (feed memchr2 limits) chunks estimator).map
        (fun entry => (entry.1, entry.2.state)) =
      trace (feedPlain limits) chunks estimator.state) :
    (feedsAll memchr2 limits chunks estimator).1 =
        (feeds limits chunks estimator.state).1.mapError .complexity ∧
      (feedsAll memchr2 limits chunks estimator).2.state =
        (feeds limits chunks estimator.state).2 := by
  induction chunks generalizing estimator with
  | nil => exact ⟨rfl, rfl⟩
  | cons chunk rest ih =>
    rw [trace, trace, List.map_cons] at same
    obtain ⟨head, tail⟩ := List.cons.inj same
    have outcome : (feed memchr2 limits chunk estimator).1 =
        (feedPython limits chunk estimator.state).1.mapError .complexity := congrArg Prod.fst head
    have state : (feed memchr2 limits chunk estimator).2.state =
        (feedPython limits chunk estimator.state).2 := congrArg Prod.snd head
    have later : (feedPlain limits chunk estimator.state).2 =
        (feed memchr2 limits chunk estimator).2.state := state.symm
    rw [later] at tail
    have known := ih tail
    rw [state] at known
    rw [feedsAll, feeds, Raise.bind_apply, Raise.bind_apply]
    generalize feed memchr2 limits chunk estimator = fed at outcome state known
    generalize feedPython limits chunk estimator.state = python at outcome state known
    obtain ⟨outcome', after⟩ := fed
    obtain ⟨_ | _, afterPython⟩ := python
    · cases outcome
      exact ⟨rfl, state⟩
    · cases outcome
      exact known

/-- **The estimator is exact on JSON documents**, however they are cut: it has counted the tokens and
the nesting of the value, and whether it raises depends on the bytes only. So does the estimator with
the extension, where the bytes can be counted in a word. -/
theorem estimator_exact {text : List Char} {constants : Bool} {value : Json}
    (decoded : Json.decode constants (text.map Char.toNat) = some value) (limits : Limits)
    {chunks : List Bytes} (isCut : chunks.flatten = Utf8.encode text) :
    (¬ Refused limits chunks → ∃ state, feeds limits chunks {} = (.ok (), state) ∧
      state.tokens = value.tokens ∧ state.peakDepth = value.depth ∧ state.depth = 0 ∧
        state.inString = false ∧ state.rawBytes = (Utf8.encode text).length) ∧
    (∀ others : List Bytes, others.flatten = Utf8.encode text →
      (Refused limits chunks ↔ Refused limits others)) ∧
    ∀ memchr2, Native.FindsFirst memchr2 → (Utf8.encode text).length < 2 ^ 64 → ∀ useNative,
      (feedsAll memchr2 limits chunks (Estimator.new limits useNative)).1 =
          (feeds limits chunks {}).1.mapError .complexity ∧
        (feedsAll memchr2 limits chunks (Estimator.new limits useNative)).2.state =
          (feeds limits chunks {}).2 := by
  refine ⟨fun accepted => ?_, fun others isOther => ?_, fun memchr2 finds short useNative => ?_⟩
  · rcases feeds_cases chunks (shallow_start limits) (light_start limits) with ⟨-, fed⟩ |
      ⟨-, raised⟩
    · obtain ⟨tokens, peak, depth, outside⟩ := Json.tally_decoded decoded
      have start : Mirrors {} {} := ⟨rfl, rfl, rfl, rfl, rfl, rfl⟩
      have mirrors := text_mirrors text start
      rw [isCut] at fed
      exact ⟨_, fed, mirrors.tokens.trans tokens, mirrors.peak.trans peak, mirrors.depth.trans
        depth,
        mirrors.inString.trans outside, Nat.zero_add _⟩
    · exact absurd raised accepted
  · rw [refused_iff, refused_iff, isCut, isOther]
  · have below : ({} : ScanState).rawBytes + chunks.flatten.length < 2 ^ 64 := by
      rw [isCut]
      exact (Nat.zero_add _).trans_lt short
    exact feedsAll_eq chunks
      (estimator_agrees finds chunks (staysInWords_of_length chunks nativeStart_counted below)
        useNative)

/-- A document in two chunks, with a key across them. -/
theorem estimator_exact_object :
    ∃ state, feeds ⟨5, 1024, 128, 4096, 268435456, by decide, by decide⟩
        [[0x7B, 0x22, 0x61], [0x22, 0x3A, 0x31, 0x7D]] {} = (.ok (), state) ∧
      state.tokens = 3 ∧ state.peakDepth = 1 ∧ state.depth = 0 ∧ state.inString = false ∧
        state.rawBytes = 7 := by
  have small : ∀ before ∈ [0x7B, 0x22, 0x61, 0x22, 0x3A, 0x31, 0x7D].inits,
      (nexts before {}).depth ≤ 128 ∧ (nexts before {}).scalarBytes ≤ 4096 := by decide
  have fits : Fits ⟨5, 1024, 128, 4096, 268435456, by decide, by decide⟩ {}
      [0x7B, 0x22, 0x61, 0x22, 0x3A, 0x31, 0x7D] :=
    ⟨fun before isPrefix =>
      have within := small before (List.mem_inits before _ |>.mpr isPrefix)
      ⟨within.1, within.2⟩, by decide⟩
  exact (@estimator_exact ['{', '"', 'a', '"', ':', '1', '}'] true (.object [([97], .number [49])])
    rfl _ [[0x7B, 0x22, 0x61], [0x22, 0x3A, 0x31, 0x7D]] rfl).1
      fun refused => (refused_iff _ _).mp refused fits

end UniApi.Admission.JsonMemory
