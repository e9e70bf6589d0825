/-
**UTF-8 as a machine that reads one byte at a time.**

`progress` classifies the bytes held since the last character boundary: they are a whole character,
the start of one, or no start of any character (the table of well-formed byte sequences: no overlong
form, no surrogate, nothing above `0x10FFFF`). `decoder` is the machine that holds the start of a
character and emits code points; `decode` is a strict incremental decoder, which refuses a whole
chunk as soon as one byte of it is refused.

* `decode_append`: the decoder does not see where its input is cut;
* `decoder_encode`: the bytes of a text decode to that text, from every character boundary;
* `decode_sound`: whatever decodes is the encoding of characters followed by the held bytes;
* `decode_held`: the held bytes, decoded afresh, are held again.
-/

import UniApi.Lib.Mealy
import Mathlib.Data.Bool.Basic
import Mathlib.Data.List.Induction
import Mathlib.Tactic.Common

namespace UniApi.Lib

/-- A string of bytes. -/
abbrev Bytes := List UInt8

/-- A code point. Strings of code points may hold lone surrogates; UTF-8 never does. -/
abbrev CodePoint := Nat

instance bytes_lawfulBEq : LawfulBEq Bytes := inferInstance

instance points_lawfulBEq : LawfulBEq (List CodePoint) := inferInstance

namespace Utf8

/-- The bytes of an ASCII literal. -/
def lit (text : String) : Bytes := text.toList.map fun letter => UInt8.ofNat letter.toNat

/-- The code points of a literal. -/
def points (text : String) : List CodePoint := text.toList.map Char.toNat

theorem lit_ofList (letters : List Char) :
    lit (String.ofList letters) = letters.map fun letter => UInt8.ofNat letter.toNat := by
  rw [lit, String.toList_ofList]

theorem points_ofList (letters : List Char) : points (String.ofList letters) = letters.map Char.toNat := by
  rw [points, String.toList_ofList]

/-- The bytes of a text. -/
def encode (text : List Char) : Bytes := text.flatMap String.utf8EncodeChar

/-- A byte string that is the encoding of some text. -/
def Valid (bytes : Bytes) : Prop := ∃ text : List Char, bytes = encode text

@[simp] theorem encode_nil : encode [] = [] := rfl

@[simp] theorem encode_cons (letter : Char) (rest : List Char) :
    encode (letter :: rest) = String.utf8EncodeChar letter ++ encode rest := rfl

theorem encode_append (first second : List Char) :
    encode (first ++ second) = encode first ++ encode second := List.flatMap_append

/-- The bytes of one code point, unless it is a surrogate or out of range. -/
def encodePoint (point : CodePoint) : Option Bytes :=
  if h : point.isValidChar then some (String.utf8EncodeChar (Char.ofNatAux point h)) else none

/-- A strict encoder of code points. -/
def encodePoints : List CodePoint → Option Bytes
  | [] => some []
  | point :: rest => do
    let head ← encodePoint point
    let tail ← encodePoints rest
    return head ++ tail

theorem encodePoint_toNat (letter : Char) :
    encodePoint letter.toNat = some (String.utf8EncodeChar letter) := by
  have valid : letter.toNat.isValidChar := letter.valid
  have same : Char.ofNatAux letter.toNat valid = letter := by
    apply Char.ext
    apply UInt32.toNat_inj.mp
    rfl
  rw [encodePoint, dif_pos valid, same]

theorem encode_ascii {letters : List Char} (ascii : ∀ letter ∈ letters, letter.toNat < 0x80) :
    encode letters = letters.map fun letter => UInt8.ofNat letter.toNat := by
  have each : ∀ letter : Char, letter.toNat < 0x80 →
      String.utf8EncodeChar letter = [UInt8.ofNat letter.toNat] := by
    intro letter small
    have value : letter.val.toNat = letter.toNat := rfl
    unfold String.utf8EncodeChar
    simp only [value, if_pos (show letter.toNat ≤ 127 by omega)]
  induction letters with
  | nil => rfl
  | cons letter rest ih =>
    rw [encode_cons, List.map_cons, each letter (ascii letter List.mem_cons_self),
      ih fun other among => ascii other (List.mem_cons_of_mem _ among)]
    rfl

theorem lit_eq_encode {text : String} (ascii : ∀ letter ∈ text.toList, letter.toNat < 0x80) :
    lit text = encode text.toList :=
  (encode_ascii ascii).symm

/-- The code points of a text encode to the bytes of the text. -/
theorem encodePoints_toNat (text : List Char) :
    encodePoints (text.map Char.toNat) = some (encode text) := by
  induction text with
  | nil => rfl
  | cons letter rest ih => simp [encodePoints, encodePoint_toNat, ih]

variable {text : List CodePoint} {bytes : Bytes}

/-- **Code points encode exactly when they are those of a text.** -/
theorem encodePoints_eq_some_iff {points : List CodePoint} :
    encodePoints points = some bytes ↔
      ∃ text : List Char, points = text.map Char.toNat ∧ bytes = encode text := by
  constructor
  · intro encoded
    induction points generalizing bytes with
    | nil =>
      cases encoded
      exact ⟨[], rfl, rfl⟩
    | cons point rest ih =>
      rw [encodePoints, Option.bind_eq_bind, Option.bind_eq_some_iff] at encoded
      obtain ⟨head, encodedHead, encoded⟩ := encoded
      rw [Option.bind_eq_some_iff] at encoded
      obtain ⟨tail, encodedTail, same⟩ := encoded
      cases same
      obtain ⟨letters, rfl, rfl⟩ := ih encodedTail
      unfold encodePoint at encodedHead
      by_cases valid : point.isValidChar
      · rw [dif_pos valid] at encodedHead
        cases encodedHead
        exact ⟨Char.ofNatAux point valid :: letters, rfl, rfl⟩
      · rw [dif_neg valid] at encodedHead
        cases encodedHead
  · rintro ⟨text, rfl, rfl⟩
    exact encodePoints_toNat text

theorem encodePoints_append {first second : List CodePoint}
    (encodes : encodePoints (first ++ second) = some bytes) : ∃ front behind,
    encodePoints first = some front ∧ encodePoints second = some behind ∧ bytes = front ++ behind := by
  obtain ⟨text, same, rfl⟩ := encodePoints_eq_some_iff.mp encodes
  obtain ⟨left, right, rfl, rfl, rfl⟩ := List.append_eq_map_iff.mp same
  exact ⟨_, _, encodePoints_toNat left, encodePoints_toNat right, encode_append left right⟩

/-- Code points that are no surrogates and in range are those of a text. -/
theorem exists_text {points : List CodePoint} (valid : ∀ point ∈ points, point.isValidChar) :
    ∃ text : List Char, points = text.map Char.toNat := by
  induction points with
  | nil => exact ⟨[], rfl⟩
  | cons point rest ih =>
    obtain ⟨text, rfl⟩ := ih fun other member => valid other (List.mem_cons_of_mem _ member)
    exact ⟨Char.ofNatAux point (valid point List.mem_cons_self) :: text, rfl⟩

/-! ### The byte machine -/

/-- What the bytes since the last character boundary are. -/
inductive Progress where
  /-- The start of no character. -/
  | invalid
  /-- The start of a character, not yet whole. -/
  | incomplete
  /-- A whole character. -/
  | whole (point : CodePoint)
  deriving DecidableEq, Repr

/-- A continuation byte, `0x80` to `0xBF`. -/
def isContinuation (byte : UInt8) : Bool := 0x80 ≤ byte.toNat && byte.toNat ≤ 0xBF

/-- The second bytes a lead byte allows: `E0` and `F0` exclude overlong forms, `ED` the surrogates
and `F4` what lies above `0x10FFFF`. -/
def secondAllowed (lead second : UInt8) : Bool :=
  if lead.toNat = 0xE0 then 0xA0 ≤ second.toNat && second.toNat ≤ 0xBF
  else if lead.toNat = 0xED then 0x80 ≤ second.toNat && second.toNat ≤ 0x9F
  else if lead.toNat = 0xF0 then 0x90 ≤ second.toNat && second.toNat ≤ 0xBF
  else if lead.toNat = 0xF4 then 0x80 ≤ second.toNat && second.toNat ≤ 0x8F
  else isContinuation second

/-- The low six bits of a continuation byte. -/
def payload (byte : UInt8) : Nat := byte.toNat - 0x80

/-- The bytes since the last character boundary, classified. All but the last byte have been
classified `incomplete` before. -/
def progress : Bytes → Progress
  | [a] =>
    if a.toNat < 0x80 then .whole a.toNat
    else if 0xC2 ≤ a.toNat && a.toNat ≤ 0xF4 then .incomplete
    else .invalid
  | [a, b] =>
    if !secondAllowed a b then .invalid
    else if a.toNat < 0xE0 then .whole ((a.toNat - 0xC0) * 64 + payload b)
    else .incomplete
  | [a, b, c] =>
    if !isContinuation c then .invalid
    else if a.toNat < 0xF0 then .whole ((a.toNat - 0xE0) * 4096 + payload b * 64 + payload c)
    else .incomplete
  | [a, b, c, d] =>
    if !isContinuation d then .invalid
    else .whole ((a.toNat - 0xF0) * 262144 + payload b * 4096 + payload c * 64 + payload d)
  | _ => .invalid

/-- The decoder. Its state is the bytes held since the last character boundary, and nothing once a
byte has been refused. -/
def decoder : Mealy (Option Bytes) UInt8 CodePoint where
  step
    | none, _ => ([], none)
    | some held, byte =>
      match progress (held ++ [byte]) with
      | .invalid => ([], none)
      | .incomplete => ([], some (held ++ [byte]))
      | .whole point => ([point], some [])

/-- One chunk through the strict decoder: its code points and the bytes still held, or nothing if
the chunk holds a refused byte. -/
def decode (held bytes : Bytes) : Option (List CodePoint × Bytes) :=
  match decoder.run (some held) bytes with
  | (text, some rest) => some (text, rest)
  | (_, none) => none

/-- A whole byte string as text. -/
def decodeAll (bytes : Bytes) : Option (List CodePoint) :=
  match decode [] bytes with
  | some (text, []) => some text
  | _ => none

@[simp] theorem decoder_refused (bytes : Bytes) : decoder.run none bytes = ([], none) := by
  induction bytes with
  | nil => rfl
  | cons byte rest ih =>
    have step : decoder.step none byte = ([], none) := rfl
    rw [Mealy.run_cons, step, ih]
    rfl

theorem decode_eq_some {held bytes : Bytes} {rest : Bytes} :
    decode held bytes = some (text, rest) ↔ decoder.run (some held) bytes = (text, some rest) := by
  unfold decode
  split <;> rename_i found <;> rw [found] <;> simp

theorem decode_eq_none {held bytes : Bytes} :
    decode held bytes = none ↔ (decoder.run (some held) bytes).2 = none := by
  unfold decode
  split <;> rename_i found <;> rw [found] <;> simp

/-- **The decoder does not see the cuts.** -/
theorem decode_append (held first second : Bytes) :
    decode held (first ++ second) = do
      let (text, rest) ← decode held first
      let (text', rest') ← decode rest second
      return (text ++ text', rest') := by
  cases here : decoder.run (some held) first with
  | mk text state =>
    cases state with
    | none =>
      have refused : decode held first = none := decode_eq_none.mpr (by rw [here])
      rw [refused, decode_eq_none.mpr (by rw [Mealy.run_append, here]; simp)]
      rfl
    | some rest =>
      rw [decode_eq_some.mpr here]
      cases later : decoder.run (some rest) second with
      | mk text' state' =>
        cases state' with
        | none =>
          have refused : decode rest second = none := decode_eq_none.mpr (by rw [later])
          rw [decode_eq_none.mpr (by rw [Mealy.run_append, here]; simp [later])]
          simp [refused]
        | some rest' =>
          have whole : decoder.run (some held) (first ++ second) = (text ++ text', some rest') := by
            rw [Mealy.run_append, here]
            simp [later]
          rw [decode_eq_some.mpr whole]
          simp [decode_eq_some.mpr later]

@[simp] theorem decode_nil (held : Bytes) : decode held [] = some ([], held) := rfl

/-! ### Encoding, then decoding -/

theorem toNat_ofNat_small {value : Nat} (small : value < 256) : (UInt8.ofNat value).toNat = value := by
  rw [UInt8.toNat_ofNat']
  exact Nat.mod_eq_of_lt small

theorem char_bounds (letter : Char) :
    letter.toNat < 0xD800 ∨ (0xDFFF < letter.toNat ∧ letter.toNat < 0x110000) := letter.valid

theorem decoder_whole (held : Bytes) (byte : UInt8) {point : CodePoint}
    (whole : progress (held ++ [byte]) = .whole point) (rest : Bytes) :
    decoder.run (some held) (byte :: rest) =
      (point :: (decoder.run (some []) rest).1, (decoder.run (some []) rest).2) := by
  have step : decoder.step (some held) byte = ([point], some []) := by simp [decoder, whole]
  rw [Mealy.run_cons, step]
  rfl

theorem decoder_incomplete (held : Bytes) (byte : UInt8)
    (incomplete : progress (held ++ [byte]) = .incomplete) (rest : Bytes) :
    decoder.run (some held) (byte :: rest) = decoder.run (some (held ++ [byte])) rest := by
  have step : decoder.step (some held) byte = ([], some (held ++ [byte])) := by
    simp [decoder, incomplete]
  rw [Mealy.run_cons, step]
  rfl

theorem progress_ascii {a : UInt8} (small : a.toNat < 0x80) : progress [a] = .whole a.toNat :=
  if_pos small

theorem progress_lead {a : UInt8} (low : 0xC2 ≤ a.toNat) (high : a.toNat ≤ 0xF4) :
    progress [a] = .incomplete := by
  have large : ¬ a.toNat < 0x80 := by omega
  simp [progress, large, low, high]

section Progress

variable {a b c d : UInt8}

theorem progress_pair (allowed : secondAllowed a b = true) (short : a.toNat < 0xE0) :
    progress [a, b] = .whole ((a.toNat - 0xC0) * 64 + payload b) := by
  simp [progress, allowed, short]

theorem progress_pair_more (allowed : secondAllowed a b = true) (long : 0xE0 ≤ a.toNat) :
    progress [a, b] = .incomplete := by
  have large : ¬ a.toNat < 0xE0 := by omega
  simp [progress, allowed, large]

theorem progress_triple (continues : isContinuation c = true) (short : a.toNat < 0xF0) :
    progress [a, b, c] = .whole ((a.toNat - 0xE0) * 4096 + payload b * 64 + payload c) := by
  simp [progress, continues, short]

theorem progress_triple_more (continues : isContinuation c = true) (long : 0xF0 ≤ a.toNat) :
    progress [a, b, c] = .incomplete := by
  have large : ¬ a.toNat < 0xF0 := by omega
  simp [progress, continues, large]

theorem progress_quad (continues : isContinuation d = true) :
    progress [a, b, c, d] =
      .whole ((a.toNat - 0xF0) * 262144 + payload b * 4096 + payload c * 64 + payload d) := by
  simp [progress, continues]

theorem isContinuation_iff : isContinuation a = true ↔ 0x80 ≤ a.toNat ∧ a.toNat ≤ 0xBF := by
  simp [isContinuation]

theorem isContinuation_of_payload {value : Nat} (small : value < 64)
    (byte : a.toNat = value + 0x80) : isContinuation a = true :=
  isContinuation_iff.mpr (by omega)

theorem payload_of_toNat {value : Nat} (byte : a.toNat = value + 0x80) : payload a = value := by
  unfold payload
  omega

end Progress

/-- **One character decodes to its code point**, from a character boundary. -/
theorem decoder_encodeChar (letter : Char) :
    decoder.run (some []) (String.utf8EncodeChar letter) = ([letter.toNat], some []) := by
  have bounds := char_bounds letter
  have value : letter.val.toNat = letter.toNat := rfl
  have small : ∀ n, n < 256 → (UInt8.ofNat n).toNat = n := fun n => toNat_ofNat_small
  unfold String.utf8EncodeChar
  simp only [value]
  generalize letter.toNat = v at bounds
  split
  · -- one byte
    have a := small v (by omega)
    rw [decoder_whole [] _ (progress_ascii (by rw [a]; omega)), a]
    rfl
  split
  · -- two bytes
    have a := small (v / 64 % 32 + 192) (by omega)
    have b := small (v % 64 + 128) (by omega)
    generalize UInt8.ofNat (v / 64 % 32 + 192) = x at a
    generalize UInt8.ofNat (v % 64 + 128) = y at b
    have allowed : secondAllowed x y = true := by
      unfold secondAllowed isContinuation
      grind
    have whole := progress_pair allowed (by omega)
    rw [payload_of_toNat b, show (x.toNat - 0xC0) * 64 + v % 64 = v by omega] at whole
    rw [decoder_incomplete [] x (progress_lead (by omega) (by omega)), List.nil_append,
      decoder_whole [x] y whole]
    rfl
  split
  · -- three bytes
    have a := small (v / 4096 % 16 + 224) (by omega)
    have b := small (v / 64 % 64 + 128) (by omega)
    have c := small (v % 64 + 128) (by omega)
    generalize UInt8.ofNat (v / 4096 % 16 + 224) = x at a
    generalize UInt8.ofNat (v / 64 % 64 + 128) = y at b
    generalize UInt8.ofNat (v % 64 + 128) = z at c
    have allowed : secondAllowed x y = true := by
      unfold secondAllowed isContinuation
      grind
    have second := progress_pair_more allowed (by omega)
    have whole : progress [x, y, z] = _ :=
      progress_triple (isContinuation_of_payload (by omega) c) (by omega)
    rw [payload_of_toNat b, payload_of_toNat c,
      show (x.toNat - 0xE0) * 4096 + v / 64 % 64 * 64 + v % 64 = v by omega] at whole
    rw [decoder_incomplete [] x (progress_lead (by omega) (by omega)), List.nil_append,
      decoder_incomplete [x] y second, List.singleton_append, decoder_whole [x, y] z whole]
    rfl
  · -- four bytes
    have a := small (v / 262144 % 8 + 240) (by omega)
    have b := small (v / 4096 % 64 + 128) (by omega)
    have c := small (v / 64 % 64 + 128) (by omega)
    have d := small (v % 64 + 128) (by omega)
    generalize UInt8.ofNat (v / 262144 % 8 + 240) = x at a
    generalize UInt8.ofNat (v / 4096 % 64 + 128) = y at b
    generalize UInt8.ofNat (v / 64 % 64 + 128) = z at c
    generalize UInt8.ofNat (v % 64 + 128) = w at d
    have allowed : secondAllowed x y = true := by
      unfold secondAllowed isContinuation
      grind
    have second := progress_pair_more allowed (by omega)
    have third : progress [x, y, z] = .incomplete :=
      progress_triple_more (isContinuation_of_payload (by omega) c) (by omega)
    have whole : progress [x, y, z, w] = _ :=
      progress_quad (isContinuation_of_payload (by omega) d)
    rw [payload_of_toNat b, payload_of_toNat c, payload_of_toNat d,
      show (x.toNat - 0xF0) * 262144 + v / 4096 % 64 * 4096 + v / 64 % 64 * 64 + v % 64 = v by
        omega] at whole
    rw [decoder_incomplete [] x (progress_lead (by omega) (by omega)), List.nil_append,
      decoder_incomplete [x] y second, List.singleton_append, decoder_incomplete [x, y] z third,
      List.cons_append, List.singleton_append, decoder_whole [x, y, z] w whole]
    rfl

/-- **The bytes of a text decode to the text**, from a character boundary. -/
theorem decoder_encode (text : List Char) :
    decoder.run (some []) (encode text) = (text.map Char.toNat, some []) := by
  induction text with
  | nil => rfl
  | cons letter rest ih => rw [encode_cons, Mealy.run_append, decoder_encodeChar, ih]; rfl

theorem decode_encode (text : List Char) :
    decode [] (encode text) = some (text.map Char.toNat, []) :=
  decode_eq_some.mpr (decoder_encode text)

theorem decodeAll_encode (text : List Char) :
    decodeAll (encode text) = some (text.map Char.toNat) := by
  unfold decodeAll
  rw [decode_encode]

theorem decodeAll_ascii (small : ∀ byte ∈ bytes, byte.toNat < 0x80) :
    decodeAll bytes = some (bytes.map UInt8.toNat) := by
  have run : decoder.run (some []) bytes = (bytes.map UInt8.toNat, some []) := by
    induction bytes with
    | nil => rfl
    | cons byte rest ih =>
      obtain ⟨smallByte, smallRest⟩ := List.forall_mem_cons.mp small
      have step : decoder.step (some []) byte = ([byte.toNat], some []) := by
        simp [decoder, progress_ascii smallByte]
      rw [Mealy.run_cons, step, ih smallRest]
      rfl
  unfold decodeAll
  rw [decode_eq_some.mpr run]

/-! ### Decoding, then encoding -/

/-- Bytes every nonempty start of which is the start of a character: what the decoder holds. -/
def Held (bytes : Bytes) : Prop := ∀ start, start ≠ [] → start <+: bytes → progress start = .incomplete

theorem held_nil : Held [] := fun _ nonempty isStart =>
  absurd (List.prefix_nil.mp isStart) nonempty

theorem held_concat {held : Bytes} {byte : UInt8} (before : Held held)
    (incomplete : progress (held ++ [byte]) = .incomplete) : Held (held ++ [byte]) := by
  intro start nonempty isStart
  rcases List.prefix_concat_iff.mp isStart with rfl | shorter
  · exact incomplete
  · exact before start nonempty shorter

theorem decoder_held {held : Bytes} (isHeld : Held held) :
    decoder.run (some []) held = ([], some held) := by
  induction held using List.reverseRecOn with
  | nil => rfl
  | append_singleton before byte ih =>
    have shorter : Held before := fun start nonempty isStart =>
      isHeld start nonempty (isStart.trans (List.prefix_append _ _))
    have last : progress (before ++ [byte]) = .incomplete :=
      isHeld _ (by simp) (List.prefix_refl _)
    rw [Mealy.run_append, ih shorter, decoder_incomplete before byte last]
    rfl

theorem decode_held {held : Bytes} (isHeld : Held held) : decode [] held = some ([], held) :=
  decode_eq_some.mpr (decoder_held isHeld)

theorem exists_char {v : Nat} (bounds : v < 0xD800 ∨ (0xDFFF < v ∧ v < 0x110000)) :
    ∃ letter : Char, letter.toNat = v := by
  have valid : v.isValidChar := bounds
  refine ⟨Char.ofNatAux v valid, ?_⟩
  rfl

theorem byte_eq {a : UInt8} {value : Nat} (same : a.toNat = value) : UInt8.ofNat value = a := by
  rw [← same]
  exact UInt8.ofNat_toNat

theorem secondAllowed_bounds {a b : UInt8} (allowed : secondAllowed a b = true) :
    (0x80 ≤ b.toNat ∧ b.toNat ≤ 0xBF) ∧ (a.toNat = 0xE0 → 0xA0 ≤ b.toNat) ∧
      (a.toNat = 0xED → b.toNat ≤ 0x9F) ∧ (a.toNat = 0xF0 → 0x90 ≤ b.toNat) ∧
      (a.toNat = 0xF4 → b.toNat ≤ 0x8F) := by
  unfold secondAllowed isContinuation at allowed
  grind

theorem lead_bounds {a : UInt8} (lead : progress [a] = .incomplete) :
    0xC2 ≤ a.toNat ∧ a.toNat ≤ 0xF4 := by
  simp only [progress] at lead
  grind

theorem second_bounds {a b : UInt8} (second : progress [a, b] = .incomplete) :
    secondAllowed a b = true ∧ 0xE0 ≤ a.toNat := by
  simp only [progress] at second
  grind

theorem third_bounds {a b c : UInt8} (third : progress [a, b, c] = .incomplete) :
    isContinuation c = true ∧ 0xF0 ≤ a.toNat := by
  simp only [progress] at third
  grind

theorem digits64 {q r : Nat} (small : r < 64) : (q * 64 + r) / 64 = q ∧ (q * 64 + r) % 64 = r := by
  omega

/-- A code point of three digits is cut back into them. -/
theorem three_digits {x y z : Nat} (second : y < 64) (third : z < 64) :
    (x * 4096 + y * 64 + z) / 4096 = x ∧ (x * 4096 + y * 64 + z) / 64 % 64 = y ∧
      (x * 4096 + y * 64 + z) % 64 = z := by
  have nested : x * 4096 + y * 64 + z = (x * 64 + y) * 64 + z := by omega
  rw [nested, show (4096 : Nat) = 64 * 64 from rfl, ← Nat.div_div_eq_div_mul, (digits64 third).1,
    (digits64 second).1, (digits64 second).2]
  exact ⟨rfl, rfl, (digits64 third).2⟩

/-- A code point of four digits is cut back into them. -/
theorem four_digits {x y z w : Nat} (second : y < 64) (third : z < 64) (last : w < 64) :
    (x * 262144 + y * 4096 + z * 64 + w) / 262144 = x ∧
      (x * 262144 + y * 4096 + z * 64 + w) / 4096 % 64 = y ∧
      (x * 262144 + y * 4096 + z * 64 + w) / 64 % 64 = z ∧
      (x * 262144 + y * 4096 + z * 64 + w) % 64 = w := by
  have nested : x * 262144 + y * 4096 + z * 64 + w = (x * 4096 + y * 64 + z) * 64 + w := by omega
  obtain ⟨front, middle, back⟩ := @three_digits x y z second third
  obtain ⟨cut, kept⟩ := @digits64 (x * 4096 + y * 64 + z) w last
  have cutAt : ∀ factor, (x * 262144 + y * 4096 + z * 64 + w) / (64 * factor) =
      (x * 4096 + y * 64 + z) / factor := by
    intro factor
    rw [nested, ← Nat.div_div_eq_div_mul, cut]
  refine ⟨(cutAt 4096).trans front, ?_, ?_, nested ▸ kept⟩
  · rw [show 4096 = 64 * 64 from rfl, cutAt 64]
    exact middle
  · rw [nested, cut]
    exact back

/-- A byte of the continuation range is a digit over the mark. -/
theorem exists_digit {byte : UInt8} (range : 0x80 ≤ byte.toNat ∧ byte.toNat ≤ 0xBF) :
    ∃ digit < 64, byte.toNat = digit + 0x80 :=
  ⟨byte.toNat - 0x80, by omega, by omega⟩

/-- **A whole character is the encoding of a character.** -/
theorem whole_sound {held : Bytes} {byte : UInt8} {point : CodePoint} (isHeld : Held held)
    (whole : progress (held ++ [byte]) = .whole point) :
    ∃ letter : Char, letter.toNat = point ∧ held ++ [byte] = String.utf8EncodeChar letter := by
  have prefixOf : ∀ start, start ≠ [] → start <+: held → progress start = .incomplete := isHeld
  match held with
  | [] =>
    have ascii : byte.toNat < 0x80 ∧ byte.toNat = point := by
      simp only [List.nil_append, progress] at whole
      grind
    obtain ⟨letter, same⟩ := exists_char (v := point) (by omega)
    refine ⟨letter, same, ?_⟩
    have value : letter.val.toNat = point := same
    unfold String.utf8EncodeChar
    simp only [value]
    rw [if_pos (by omega), byte_eq ascii.2]
    rfl
  | [a] =>
    have lead := lead_bounds (prefixOf [a] (by simp) (List.prefix_refl _))
    have parts : secondAllowed a byte = true ∧ a.toNat < 0xE0 ∧
        (a.toNat - 0xC0) * 64 + payload byte = point := by
      simp only [List.singleton_append, progress] at whole
      grind
    obtain ⟨y, second, back⟩ := exists_digit (secondAllowed_bounds parts.1).1
    obtain ⟨x, front⟩ := Nat.exists_eq_add_of_le' (show 0xC0 ≤ a.toNat by omega)
    have sum := parts.2.2
    rw [payload_of_toNat back, front, Nat.add_sub_cancel] at sum
    have range : 2 ≤ x ∧ x < 32 := by omega
    have digits := @digits64 x y second
    rw [sum] at digits
    have valid : (0x80 : Nat) ≤ point ∧ (0x800 : Nat) > point := by omega
    obtain ⟨letter, same⟩ := exists_char (v := point) (by omega)
    refine ⟨letter, same, ?_⟩
    have value : letter.val.toNat = point := same
    unfold String.utf8EncodeChar
    simp only [value]
    rw [if_neg (by omega), if_pos (by omega), digits.1, digits.2, Nat.mod_eq_of_lt range.2,
      byte_eq front, byte_eq back]
    rfl
  | [a, b] =>
    have lead := lead_bounds (prefixOf [a] (by simp) (by simp))
    have second := second_bounds (prefixOf [a, b] (by simp) (List.prefix_refl _))
    have parts : isContinuation byte = true ∧ a.toNat < 0xF0 ∧
        (a.toNat - 0xE0) * 4096 + payload b * 64 + payload byte = point := by
      simp only [List.cons_append, List.nil_append, progress] at whole
      grind
    have bounds := secondAllowed_bounds second.1
    obtain ⟨y, smallY, middle⟩ := exists_digit bounds.1
    obtain ⟨z, smallZ, back⟩ := exists_digit (isContinuation_iff.mp parts.1)
    obtain ⟨x, front⟩ := Nat.exists_eq_add_of_le' second.2
    have sum := parts.2.2
    rw [payload_of_toNat middle, payload_of_toNat back, front, Nat.add_sub_cancel] at sum
    -- neither a shorter character nor a surrogate
    have range : x < 16 ∧ (x = 0 → 32 ≤ y) ∧ (x = 13 → y < 32) := by
      have high := parts.2.1
      clear sum
      omega
    have digits := @three_digits x y z smallY smallZ
    rw [sum] at digits
    have valid : (0x800 : Nat) ≤ point ∧ (0x10000 : Nat) > point ∧
        ((0xD800 : Nat) > point ∨ (0xDFFF : Nat) < point) := by
      clear bounds lead second digits
      omega
    obtain ⟨letter, same⟩ := exists_char (v := point) (by omega)
    refine ⟨letter, same, ?_⟩
    have value : letter.val.toNat = point := same
    unfold String.utf8EncodeChar
    simp only [value]
    rw [if_neg (by omega), if_neg (by omega), if_pos (by omega), digits.1, digits.2.1, digits.2.2,
      Nat.mod_eq_of_lt range.1, byte_eq front, byte_eq middle, byte_eq back]
    rfl
  | [a, b, c] =>
    have lead := lead_bounds (prefixOf [a] (by simp) (by simp))
    have second := second_bounds (prefixOf [a, b] (by simp) (by simp))
    have third := third_bounds (prefixOf [a, b, c] (by simp) (List.prefix_refl _))
    have parts : isContinuation byte = true ∧
        (a.toNat - 0xF0) * 262144 + payload b * 4096 + payload c * 64 + payload byte = point := by
      simp only [List.cons_append, List.nil_append, progress] at whole
      grind
    have bounds := secondAllowed_bounds second.1
    obtain ⟨y, smallY, middle⟩ := exists_digit bounds.1
    obtain ⟨z, smallZ, later⟩ := exists_digit (isContinuation_iff.mp third.1)
    obtain ⟨w, smallW, back⟩ := exists_digit (isContinuation_iff.mp parts.1)
    obtain ⟨x, front⟩ := Nat.exists_eq_add_of_le' third.2
    have sum := parts.2
    rw [payload_of_toNat middle, payload_of_toNat later, payload_of_toNat back, front,
      Nat.add_sub_cancel] at sum
    -- neither a shorter character nor one above the last
    have range : x < 8 ∧ (x = 0 → 16 ≤ y) ∧ (x < 4 ∨ x = 4 ∧ y < 16) := by
      have high := lead.2
      clear sum
      omega
    have digits := @four_digits x y z w smallY smallZ smallW
    rw [sum] at digits
    have valid : (0x10000 : Nat) ≤ point ∧ (0x110000 : Nat) > point := by
      clear bounds lead second third digits
      omega
    obtain ⟨letter, same⟩ := exists_char (.inr ⟨by omega, valid.2⟩)
    refine ⟨letter, same, ?_⟩
    have value : letter.val.toNat = point := same
    unfold String.utf8EncodeChar
    simp only [value]
    rw [if_neg (by omega), if_neg (by omega), if_neg (by omega), digits.1, digits.2.1,
      digits.2.2.1, digits.2.2.2, Nat.mod_eq_of_lt range.1, byte_eq front, byte_eq middle,
      byte_eq later, byte_eq back]
    rfl
  | a :: b :: c :: d :: rest =>
    -- four held bytes would already be whole or refused
    have four := prefixOf [a, b, c, d] (by simp) (by simp)
    simp only [progress] at four
    split at four <;> cases four

theorem decoder_step_sound {held : Bytes} {byte : UInt8} {rest : Bytes}
    (isHeld : Held held) (step : decoder.step (some held) byte = (text, some rest)) :
    Held rest ∧ ∃ letters : List Char, text = letters.map Char.toNat ∧
      held ++ [byte] = encode letters ++ rest := by
  cases kind : progress (held ++ [byte]) with
  | invalid => simp [decoder, kind] at step
  | incomplete =>
    simp only [decoder, kind, Prod.mk.injEq, Option.some.injEq] at step
    obtain ⟨rfl, rfl⟩ := step
    exact ⟨held_concat isHeld kind, [], rfl, rfl⟩
  | whole point =>
    simp only [decoder, kind, Prod.mk.injEq, Option.some.injEq] at step
    obtain ⟨rfl, rfl⟩ := step
    obtain ⟨letter, same, bytes⟩ := whole_sound isHeld kind
    exact ⟨held_nil, [letter], by simp [same], by simp [bytes]⟩

/-- **What decodes is the encoding of characters, followed by the held bytes.** -/
theorem decoder_sound (held bytes : Bytes) {rest : Bytes}
    (isHeld : Held held) (run : decoder.run (some held) bytes = (text, some rest)) :
    Held rest ∧ ∃ letters : List Char, text = letters.map Char.toNat ∧
      held ++ bytes = encode letters ++ rest := by
  induction bytes generalizing held text with
  | nil =>
    simp only [Mealy.run_nil, Prod.mk.injEq, Option.some.injEq] at run
    obtain ⟨rfl, rfl⟩ := run
    exact ⟨isHeld, [], rfl, by simp⟩
  | cons byte later ih =>
    rw [Mealy.run_cons] at run
    cases step : decoder.step (some held) byte with
    | mk here state =>
      rw [step] at run
      cases state with
      | none => simp at run
      | some middle =>
        obtain ⟨middleHeld, first, firstText, firstBytes⟩ := decoder_step_sound isHeld step
        simp only [Prod.mk.injEq] at run
        obtain ⟨restHeld, second, secondText, secondBytes⟩ :=
          ih middle middleHeld (Prod.ext rfl run.2)
        refine ⟨restHeld, first ++ second, ?_, ?_⟩
        · rw [← run.1, firstText, List.map_append, ← secondText]
        · calc held ++ byte :: later = (held ++ [byte]) ++ later := by simp
            _ = encode first ++ (middle ++ later) := by rw [firstBytes, List.append_assoc]
            _ = encode (first ++ second) ++ rest := by
              rw [secondBytes, encode_append, List.append_assoc]

theorem decode_sound {held bytes : Bytes} {rest : Bytes}
    (isHeld : Held held) (decoded : decode held bytes = some (text, rest)) :
    Held rest ∧ ∃ letters : List Char, text = letters.map Char.toNat ∧
      held ++ bytes = encode letters ++ rest :=
  decoder_sound held bytes isHeld (decode_eq_some.mp decoded)

/-- **A byte string decodes as a whole exactly when it is UTF-8.** -/
theorem decodeAll_eq_some_iff :
    decodeAll bytes = some text ↔
      ∃ letters : List Char, bytes = encode letters ∧ text = letters.map Char.toNat := by
  constructor
  · intro whole
    unfold decodeAll at whole
    split at whole
    · rename_i decoded
      obtain ⟨-, letters, sameText, sameBytes⟩ := decode_sound held_nil decoded
      cases whole
      exact ⟨letters, by simpa using sameBytes, sameText⟩
    · cases whole
  · rintro ⟨letters, rfl, rfl⟩
    exact decodeAll_encode letters

/-- Bytes that decode to ASCII are their own code points. -/
theorem map_toNat_of_decodeAll
    (decoded : decodeAll bytes = some text) (small : ∀ point ∈ text, point < 0x80) :
    bytes.map UInt8.toNat = text := by
  obtain ⟨letters, rfl, rfl⟩ := decodeAll_eq_some_iff.mp decoded
  have ascii : ∀ letter ∈ letters, letter.toNat < 0x80 := fun letter isLetter =>
    small _ (List.mem_map_of_mem isLetter)
  rw [encode_ascii ascii, List.map_map]
  refine List.map_congr_left fun letter isLetter => ?_
  have bound := ascii letter isLetter
  exact toNat_ofNat_small (by omega)

theorem toNat_injective : Function.Injective Char.toNat := fun _ _ equal =>
  Char.ext (UInt32.toNat_inj.mp equal)

theorem decodeAll_injective {first second : Bytes} {text : List CodePoint}
    (decoded : decodeAll first = some text) (decoded' : decodeAll second = some text) :
    first = second := by
  obtain ⟨letters, rfl, rfl⟩ := decodeAll_eq_some_iff.mp decoded
  obtain ⟨letters', rfl, same⟩ := decodeAll_eq_some_iff.mp decoded'
  rw [List.map_injective_iff.mpr toNat_injective same]

/-- One text begins with another if it does so as bytes. -/
theorem prefix_iff_of_decodeAll {first second : Bytes} {text text' : List CodePoint}
    (decoded : decodeAll first = some text) (decoded' : decodeAll second = some text') :
    first <+: second ↔ text <+: text' := by
  obtain ⟨letters, rfl, rfl⟩ := decodeAll_eq_some_iff.mp decoded
  obtain ⟨letters', rfl, rfl⟩ := decodeAll_eq_some_iff.mp decoded'
  constructor
  · rintro ⟨rest, whole⟩
    have cut := decode_append [] (encode letters) rest
    rw [whole, decode_encode, decode_encode] at cut
    cases later : decode [] rest with
    | none => simp [later] at cut
    | some decodedRest =>
      simp only [later, Option.bind_eq_bind, Option.bind_some, Option.pure_def, Option.some.injEq,
        Prod.mk.injEq] at cut
      exact ⟨_, cut.1.symm⟩
  · rintro ⟨rest, whole⟩
    obtain ⟨front, back, rfl, isFront, -⟩ := List.map_eq_append_iff.mp whole.symm
    rw [← List.map_injective_iff.mpr toNat_injective isFront, encode_append]
    exact List.prefix_append _ _

theorem decodeAll_concat_ascii {text : Bytes} {points : List CodePoint} {byte : UInt8}
    (decoded : decodeAll text = some points) (small : byte.toNat < 0x80) :
    decodeAll (text ++ [byte]) = some (points ++ [byte.toNat]) := by
  obtain ⟨letters, rfl, rfl⟩ := decodeAll_eq_some_iff.mp decoded
  have last : decodeAll [byte] = some [byte.toNat] := decodeAll_ascii (by simpa using small)
  obtain ⟨letter, same, isLetter⟩ := decodeAll_eq_some_iff.mp last
  refine decodeAll_eq_some_iff.mpr ⟨letters ++ letter, ?_, ?_⟩
  · rw [encode_append, ← same]
  · rw [List.map_append, ← isLetter]

end Utf8

end UniApi.Lib
