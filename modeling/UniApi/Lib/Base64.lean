/-
**Base64.**

Three bytes are four numbers of six bits, and each number is a letter. The letters of bytes are filled up
with `=`, so that their number is a multiple of four.

* `pack_append`, `unpack_append`: whole groups are packed and unpacked on their own;
* `unpack_pack`: the bytes of the numbers of bytes;
* `encode_append`, `strictDecode_append`: so are texts of whole groups;
* `strictDecode_encode`, `strictDecode_length`: strict decoding, and how many bytes it gives;
* `lenientDecode_letters`, `lenientFrom_some`, `pack_unpack`: what is leniently decoded.
-/

import Mathlib.Data.List.DropRight
import Mathlib.Tactic.IntervalCases
import UniApi.Lib.Utf8

namespace UniApi.Lib.Base64

/-! ### Numbers of six bits -/

/-- A number of six bits. -/
abbrev Sextet := Fin 64

/-- The lowest six bits. -/
def sextet (value : ℕ) : Sextet := Fin.ofNat 64 value

/-- The numbers of bytes. -/
def pack : Bytes → List Sextet
  | first :: second :: third :: rest =>
    sextet (first.toNat / 4) :: sextet (first.toNat % 4 * 16 + second.toNat / 16) ::
      sextet (second.toNat % 16 * 4 + third.toNat / 64) :: sextet third.toNat :: pack rest
  | [first, second] =>
    [sextet (first.toNat / 4), sextet (first.toNat % 4 * 16 + second.toNat / 16),
      sextet (second.toNat % 16 * 4)]
  | [first] => [sextet (first.toNat / 4), sextet (first.toNat % 4 * 16)]
  | [] => []

/-- The bytes of numbers. Bits that fill no byte are left out. -/
def unpack : List Sextet → Bytes
  | first :: second :: third :: fourth :: rest =>
    UInt8.ofNat (first * 4 + second / 16) :: UInt8.ofNat (second % 16 * 16 + third / 4) ::
      UInt8.ofNat (third % 4 * 64 + fourth) :: unpack rest
  | [first, second, third] =>
    [UInt8.ofNat (first * 4 + second / 16), UInt8.ofNat (second % 16 * 16 + third / 4)]
  | [first, second] => [UInt8.ofNat (first * 4 + second / 16)]
  | _ => []

theorem sextet_val {value : ℕ} (small : value < 64) : (sextet value : ℕ) = value := Nat.mod_eq_of_lt small

theorem ofNat_toNat {value : ℕ} (byte : UInt8) (same : value = byte.toNat) : UInt8.ofNat value = byte := by
  rw [same, UInt8.ofNat_toNat]

/-- **The bytes of the numbers of bytes.** -/
theorem unpack_pack : ∀ bytes : Bytes, unpack (pack bytes) = bytes
  | first :: second :: third :: rest => by
    have bound := first.toNat_lt
    have bound' := second.toNat_lt
    have bound'' := third.toNat_lt
    rw [pack, unpack, unpack_pack rest, sextet_val (by omega), sextet_val (by omega), sextet_val (by omega),
      ofNat_toNat first (by omega), ofNat_toNat second (by omega), ofNat_toNat third]
    show _ + third.toNat % 64 = _
    omega
  | [first, second] => by
    have bound := first.toNat_lt
    have bound' := second.toNat_lt
    rw [pack, unpack, sextet_val (by omega), sextet_val (by omega), sextet_val (by omega),
      ofNat_toNat first (by omega), ofNat_toNat second (by omega)]
  | [first] => by
    have bound := first.toNat_lt
    rw [pack, unpack, sextet_val (by omega), sextet_val (by omega), ofNat_toNat first (by omega)]
  | [] => rfl

theorem pack_append : ∀ {first : Bytes} (second : Bytes), 3 ∣ first.length →
    pack (first ++ second) = pack first ++ pack second
  | a :: b :: c :: first, second, whole => by
    have whole' : 3 ∣ first.length := (Nat.dvd_add_left (Nat.dvd_refl 3)).mp whole
    rw [List.cons_append, List.cons_append, List.cons_append, pack, pack, pack_append second whole']
    rfl
  | [a, b], _, whole => absurd whole (by simp)
  | [a], _, whole => absurd whole (by simp)
  | [], _, _ => rfl

theorem unpack_append : ∀ {first : List Sextet} (second : List Sextet), 4 ∣ first.length →
    unpack (first ++ second) = unpack first ++ unpack second
  | a :: b :: c :: d :: first, second, whole => by
    have whole' : 4 ∣ first.length := (Nat.dvd_add_left (Nat.dvd_refl 4)).mp whole
    rw [List.cons_append, List.cons_append, List.cons_append, List.cons_append, unpack, unpack,
      unpack_append second whole']
    rfl
  | [a, b, c], _, whole => absurd whole (by simp)
  | [a, b], _, whole => absurd whole (by simp)
  | [a], _, whole => absurd whole (by simp)
  | [], _, _ => rfl

theorem pack_length : ∀ bytes : Bytes, (pack bytes).length = (bytes.length * 4 + 2) / 3
  | a :: b :: c :: rest => by
    rw [pack]
    simp only [List.length_cons, pack_length rest]
    omega
  | [_, _] => by simp [pack]
  | [_] => by simp [pack]
  | [] => rfl

theorem unpack_length : ∀ numbers : List Sextet, (unpack numbers).length = numbers.length * 3 / 4
  | a :: b :: c :: d :: rest => by
    rw [unpack]
    simp only [List.length_cons, unpack_length rest]
    omega
  | [_, _, _] => by simp [unpack]
  | [_, _] => by simp [unpack]
  | [_] => by simp [unpack]
  | [] => rfl

/-! ### Letters -/

/-- A letter of the alphabet. -/
def letter (value : Sextet) : ℕ :=
  if value < 26 then 65 + value
  else if value < 52 then 71 + value
  else if value < 62 then value - 4
  else if value = 62 then 43
  else 47

/-- The number of a letter. -/
def valueOf (letter : ℕ) : Option Sextet :=
  if 65 ≤ letter ∧ letter ≤ 90 then some (sextet (letter - 65))
  else if 97 ≤ letter ∧ letter ≤ 122 then some (sextet (letter - 71))
  else if 48 ≤ letter ∧ letter ≤ 57 then some (sextet (letter + 4))
  else if letter = 43 then some 62
  else if letter = 47 then some 63
  else none

theorem valueOf_letter : ∀ value, valueOf (letter value) = some value := by decide

theorem letter_ne_sign : ∀ value, letter value ≠ 61 := by decide

theorem letters_mapM (values : List Sextet) : (values.map letter).mapM valueOf = some values := by
  induction values with
  | nil => rfl
  | cons value values ih =>
    rw [List.map_cons, List.mapM_cons, valueOf_letter, ih]
    rfl

/-- The signs that fill up a text. -/
def padding (length : ℕ) : List CodePoint := List.replicate ((4 - length % 4) % 4) 61

theorem padding_of_dvd {length : ℕ} (whole : 4 ∣ length) : padding length = [] := by
  rw [padding, Nat.mod_eq_zero_of_dvd whole]
  rfl

/-- `base64.b64encode(bytes)`. -/
def encode (bytes : Bytes) : List CodePoint := (pack bytes).map letter ++ padding (pack bytes).length

/-- **Whole groups are encoded on their own.** -/
theorem encode_append {first : Bytes} (second : Bytes) (whole : 3 ∣ first.length) :
    encode (first ++ second) = encode first ++ encode second := by
  have groups : 4 ∣ (pack first).length := by
    rw [pack_length]
    omega
  rw [encode, encode, encode, pack_append second whole, padding_of_dvd groups, List.append_nil,
    List.map_append,
    List.length_append, List.append_assoc, padding, padding, Nat.add_mod, Nat.mod_eq_zero_of_dvd groups,
    Nat.zero_add, Nat.mod_mod]

theorem encode_whole (bytes : Bytes) : 4 ∣ (encode bytes).length := by
  rw [encode, List.length_append, List.length_map, padding, List.length_replicate]
  omega

/-! ### Strict decoding -/

/-- `=`. -/
def isSign (sign : CodePoint) : Bool := sign == 61

/-- The text without the signs at its end. -/
def letters (text : List CodePoint) : List CodePoint := text.rdropWhile isSign

/-- `base64.b64decode(text, validate=True)`, as it is documented: there are letters alone, and at
most two signs at the end that fill up the last group. -/
def strictDecode (text : List CodePoint) : Option Bytes :=
  if text.length - (letters text).length ≤ 2 ∧ 4 ∣ text.length then
    ((letters text).mapM valueOf).map unpack
  else none

/-- What is left of a text behind another one without signs. -/
theorem letters_append {first : List CodePoint} (second : List CodePoint) (noSign : 61 ∉ first) :
    letters (first ++ second) = first ++ letters second := by
  induction second using List.reverseRecOn with
  | nil =>
    rw [List.append_nil, letters, letters, List.rdropWhile_nil, List.append_nil,
      List.rdropWhile_eq_self_iff]
    exact fun some_ last => noSign (beq_iff_eq.mp last ▸ List.getLast_mem some_)
  | append_singleton front last ih =>
    rw [← List.append_assoc]
    cases behind : isSign last with
    | true =>
      rw [letters, List.rdropWhile_concat_pos _ _ _ behind, letters,
        List.rdropWhile_concat_pos _ _ _ behind]
      exact ih
    | false =>
      have behind' : ¬ isSign last = true := by rw [behind]; exact Bool.false_ne_true
      rw [letters, List.rdropWhile_concat_neg _ _ _ behind', letters,
        List.rdropWhile_concat_neg _ _ _ behind', List.append_assoc]

theorem letters_append_signs (text : List CodePoint) (signs : ℕ) :
    letters (text ++ List.replicate signs 61) = letters text := by
  induction signs with
  | zero => rw [List.replicate_zero, List.append_nil]
  | succ signs ih =>
    rw [List.replicate_succ', ← List.append_assoc, letters, List.rdropWhile_concat_pos _ _ _ rfl]
    exact ih

theorem letters_signs (signs : ℕ) : letters (List.replicate signs 61) = [] :=
  letters_append_signs [] signs

/-- A text is its letters and the signs behind them. -/
theorem letters_split (text : List CodePoint) :
    text = letters text ++ List.replicate (text.length - (letters text).length) 61 := by
  have split : letters text ++ text.rtakeWhile isSign = text := List.rdropWhile_append_rtakeWhile
  have signs : text.rtakeWhile isSign = List.replicate (text.rtakeWhile isSign).length 61 :=
    List.eq_replicate_iff.mpr ⟨rfl, fun other among => beq_iff_eq.mp
      (List.mem_rtakeWhile_imp (p := isSign) among)⟩
  have length := congrArg List.length split
  rw [List.length_append] at length
  rw [show text.length - (letters text).length = (text.rtakeWhile isSign).length by omega, ← signs]
  exact split.symm

theorem letter_valueOf {sign : ℕ} {value : Sextet} (known : valueOf sign = some value) :
    letter value = sign := by
  have letters : ∀ number, letter (sextet number) =
      if number % 64 < 26 then 65 + number % 64
      else if number % 64 < 52 then 71 + number % 64
      else if number % 64 < 62 then number % 64 - 4
      else if sextet number = 62 then 43
      else 47 := fun _ => rfl
  rw [valueOf] at known
  split_ifs at known with upper lower digit plus slash <;> cases known
  · rw [letters, if_pos (by omega)]
    omega
  · rw [letters, if_neg (by omega), if_pos (by omega)]
    omega
  · rw [letters, if_neg (by omega), if_neg (by omega), if_pos (by omega)]
    omega
  · exact plus.symm
  · exact slash.symm

theorem letters_of_mapM : ∀ {text : List CodePoint} {values : List Sextet},
    text.mapM valueOf = some values → values.map letter = text
  | [], values, known => by
    cases known
    rfl
  | sign :: text, values, known => by
    rw [List.mapM_cons] at known
    obtain ⟨value, isValue, later⟩ := Option.bind_eq_some_iff.mp known
    obtain ⟨others, areOthers, same⟩ := Option.bind_eq_some_iff.mp later
    cases same
    rw [List.map_cons, letter_valueOf isValue, letters_of_mapM areOthers]

theorem sign_not_letter (values : List Sextet) : 61 ∉ values.map letter := by
  intro among
  obtain ⟨value, -, same⟩ := List.mem_map.mp among
  exact letter_ne_sign value same

/-- **What is strictly decoded**: letters, and at most two signs that fill up the last group. -/
theorem strictDecode_eq_some_iff {text : List CodePoint} {bytes : Bytes} : strictDecode text = some bytes ↔
    ∃ values signs, text = values.map letter ++ List.replicate signs 61 ∧ signs ≤ 2 ∧
      4 ∣ values.length + signs ∧ unpack values = bytes := by
  constructor
  · intro decodes
    rw [strictDecode] at decodes
    split_ifs at decodes with fits
    obtain ⟨values, known, unpacks⟩ := Option.map_eq_some_iff.mp decodes
    have same := letters_of_mapM known
    have split := letters_split text
    refine ⟨values, _, by rwa [same], fits.1, ?_, unpacks⟩
    have length := congrArg List.length split
    have length' := congrArg List.length same
    rw [List.length_append, List.length_replicate] at length
    rw [List.length_map] at length'
    rw [length', ← length]
    exact fits.2
  · rintro ⟨values, signs, rfl, few, whole, rfl⟩
    have front : letters (values.map letter ++ List.replicate signs 61) = values.map letter := by
      rw [letters_append _ (sign_not_letter values), letters_signs, List.append_nil]
    rw [strictDecode, front, letters_mapM, if_pos]
    · rfl
    · simpa using ⟨few, whole⟩

/-- **Strict decoding undoes encoding.** -/
theorem strictDecode_encode (bytes : Bytes) : strictDecode (encode bytes) = some bytes := by
  refine strictDecode_eq_some_iff.mpr ⟨pack bytes, _, rfl, ?_, ?_, unpack_pack bytes⟩
  · rw [pack_length]
    omega
  · omega

/-- A text that is decoded has at most two signs, and whole groups. -/
theorem strictDecode_fits {text : List CodePoint} {bytes : Bytes}
    (decodes : strictDecode text = some bytes) :
    text.length - (letters text).length ≤ 2 ∧ 4 ∣ text.length := by
  rw [strictDecode] at decodes
  split_ifs at decodes with fits
  exact fits

theorem strictDecode_length {text : List CodePoint} {bytes : Bytes}
    (decodes : strictDecode text = some bytes) :
    bytes.length = text.length / 4 * 3 - (text.length - (letters text).length) := by
  obtain ⟨values, signs, rfl, few, whole, rfl⟩ := strictDecode_eq_some_iff.mp decodes
  rw [letters_append _ (sign_not_letter values), letters_signs, unpack_length]
  simp only [List.length_append, List.length_map, List.length_replicate, List.length_nil]
  omega

theorem mapM_append (first second : List CodePoint) : (first ++ second).mapM valueOf
    = (first.mapM valueOf).bind fun front => (second.mapM valueOf).map (front ++ ·) := by
  rw [List.mapM_append]
  cases first.mapM valueOf <;> cases second.mapM valueOf <;> rfl

/-- **Whole groups without signs are decoded on their own.** -/
theorem strictDecode_append {first : List CodePoint} (second : List CodePoint) (noSign : 61 ∉ first)
    (whole : 4 ∣ first.length) : strictDecode (first ++ second)
      = (strictDecode first).bind fun front => (strictDecode second).map (front ++ ·) := by
  have alone : letters first = first := by
    have front := letters_append [] noSign
    rwa [List.append_nil, letters, letters, List.rdropWhile_nil, List.append_nil] at front
  have signs : (first ++ second).length - (letters (first ++ second)).length
      = second.length - (letters second).length := by
    rw [letters_append _ noSign, List.length_append, List.length_append, Nat.add_sub_add_left]
  have groups : 4 ∣ (first ++ second).length ↔ 4 ∣ second.length := by
    rw [List.length_append, Nat.dvd_add_right whole]
  have here : strictDecode first = (first.mapM valueOf).map unpack := by
    rw [strictDecode, alone, if_pos (by simpa using whole)]
  rw [here, strictDecode, signs, letters_append _ noSign, mapM_append, strictDecode]
  simp only [groups]
  split_ifs with fits
  · cases known : first.mapM valueOf with
    | none => rfl
    | some values =>
      have groups' : 4 ∣ values.length := by
        rw [← letters_of_mapM known, List.length_map] at whole
        exact whole
      cases (letters second).mapM valueOf with
      | none => rfl
      | some others => exact congrArg some (unpack_append others groups')
  · cases first.mapM valueOf <;> rfl

/-! ### Lenient decoding -/

/-- The loop of `binascii.a2b_base64`, with the numbers that were read and the signs behind them. Other
characters are left out, and nothing is read behind signs that fill up a group. -/
def lenientFrom (values : List Sextet) (signs : ℕ) : List CodePoint → Option Bytes
  | [] => if values.length % 4 = 0 then some (unpack values) else none
  | sign :: text =>
    if isSign sign then
      if values.length % 4 < 2 then lenientFrom values signs text
      else if 4 ≤ values.length % 4 + (signs + 1) then some (unpack values)
      else lenientFrom values (signs + 1) text
    else
      match valueOf sign with
      | none => lenientFrom values signs text
      | some value => lenientFrom (values ++ [value]) 0 text

/-- `base64.b64decode(text)`. -/
def lenientDecode (text : List CodePoint) : Option Bytes := lenientFrom [] 0 text

/-- The same, or the same but for the last of them. -/
def SameButLast {α : Type} (first second : List α) : Prop :=
  first = second ∨ ∃ front last last', first = front ++ [last] ∧ second = front ++ [last']

theorem SameButLast.cons {α : Type} {first second : List α} (value : α) (same : SameButLast first second) :
    SameButLast (value :: first) (value :: second) := by
  rcases same with rfl | ⟨front, last, last', rfl, rfl⟩
  · exact .inl rfl
  · exact .inr ⟨value :: front, last, last', rfl, rfl⟩

theorem SameButLast.map {α β : Type} {first second : List α} (image : α → β)
    (same : SameButLast first second) :
    SameButLast (first.map image) (second.map image) := by
  rcases same with rfl | ⟨front, last, last', rfl, rfl⟩
  · exact .inl rfl
  · exact .inr ⟨front.map image, image last, image last', List.map_append, List.map_append⟩

theorem toNat_ofNat {value : ℕ} (small : value < 256) : (UInt8.ofNat value).toNat = value :=
  Nat.mod_eq_of_lt small

theorem sextet_eq {value : ℕ} (number : Sextet) (same : value % 64 = number) : sextet value = number :=
  Fin.ext same

/-- **The numbers of the bytes of numbers.** Bits that fill no byte are lost, and they are in the
last one. -/
theorem pack_unpack : ∀ {values : List Sextet}, values.length % 4 ≠ 1 →
    SameButLast values (pack (unpack values))
  | a :: b :: c :: d :: rest, some_ => by
    have some' : rest.length % 4 ≠ 1 := by
      simp only [List.length_cons] at some_
      omega
    rw [unpack, pack, toNat_ofNat (by omega), toNat_ofNat (by omega), toNat_ofNat (by omega),
      sextet_eq a (by omega), sextet_eq b (by omega), sextet_eq c (by omega), sextet_eq d (by omega)]
    exact ((((pack_unpack some').cons d).cons c).cons b).cons a
  | [a, b, c], _ => by
    rw [unpack, pack, toNat_ofNat (by omega), toNat_ofNat (by omega), sextet_eq a (by omega),
      sextet_eq b (by omega)]
    exact .inr ⟨[a, b], c, _, rfl, rfl⟩
  | [a, b], _ => by
    rw [unpack, pack, toNat_ofNat (by omega), sextet_eq a (by omega)]
    exact .inr ⟨[a], b, _, rfl, rfl⟩
  | [a], some_ => absurd rfl some_
  | [], _ => .inl rfl

/-- **What is leniently decoded**: the letters in front of a sign, or all letters. -/
theorem lenientFrom_some : ∀ {text : List CodePoint} {values : List Sextet} {signs : ℕ} {bytes : Bytes},
    lenientFrom values signs text = some bytes → ∃ front,
      (front = text ∨ front ++ [61] <+: text) ∧ (values ++ front.filterMap valueOf).length % 4 ≠ 1 ∧
        unpack (values ++ front.filterMap valueOf) = bytes
  | [], values, _, bytes, decodes => by
    rw [lenientFrom] at decodes
    split_ifs at decodes with whole
    cases decodes
    refine ⟨[], .inl rfl, ?_, ?_⟩ <;> rw [List.filterMap_nil, List.append_nil]
    omega
  | sign :: text, values, signs, bytes, decodes => by
    -- a character that is no letter
    have skip {signs' : ℕ} (noLetter : valueOf sign = none)
        (later : lenientFrom values signs' text = some bytes) :
        ∃ front, (front = sign :: text ∨ front ++ [61] <+: sign :: text) ∧
          (values ++ front.filterMap valueOf).length % 4 ≠ 1 ∧
            unpack (values ++ front.filterMap valueOf) = bytes := by
      obtain ⟨front, isFront, some_, unpacks⟩ := lenientFrom_some later
      refine ⟨sign :: front, ?_, ?_, ?_⟩
      · exact isFront.imp (congrArg _) fun front' => List.cons_prefix_cons.mpr ⟨rfl, front'⟩
      · rwa [List.filterMap_cons_none noLetter]
      · rwa [List.filterMap_cons_none noLetter]
    rw [lenientFrom] at decodes
    split_ifs at decodes with equal few full
    · exact skip (by rw [beq_iff_eq.mp equal]; rfl) decodes
    · cases decodes
      refine ⟨[], .inr ?_, ?_, ?_⟩
      · rw [beq_iff_eq.mp equal]
        exact List.prefix_append [61] text
      · rw [List.filterMap_nil, List.append_nil]
        omega
      · rw [List.filterMap_nil, List.append_nil]
    · exact skip (by rw [beq_iff_eq.mp equal]; rfl) decodes
    · cases known : valueOf sign with
      | none =>
        rw [known] at decodes
        exact skip known decodes
      | some value =>
        rw [known] at decodes
        obtain ⟨front, isFront, some_, unpacks⟩ := lenientFrom_some decodes
        have more : values ++ (sign :: front).filterMap valueOf = values ++ [value]
            ++ front.filterMap valueOf := by
          rw [List.filterMap_cons_some known, List.append_assoc]
          rfl
        refine ⟨sign :: front, ?_, ?_, ?_⟩
        · exact isFront.imp (congrArg _) fun front' => List.cons_prefix_cons.mpr ⟨rfl, front'⟩
        · rwa [more]
        · rwa [more]

theorem lenientFrom_letters (more : List Sextet) (text : List CodePoint) : ∀ values : List Sextet,
    lenientFrom values 0 (more.map letter ++ text) = lenientFrom (values ++ more) 0 text := by
  induction more with
  | nil =>
    intro values
    rw [List.append_nil]
    rfl
  | cons value more ih =>
    intro values
    have noSign : isSign (letter value) = false := beq_eq_false_iff_ne.mpr (letter_ne_sign value)
    rw [List.map_cons, List.cons_append, lenientFrom, noSign, if_neg Bool.false_ne_true, valueOf_letter]
    dsimp only
    rw [ih, List.append_assoc]
    rfl

theorem lenientFrom_sign {values : List Sextet} {signs : ℕ} (text : List CodePoint)
    (remain : 2 ≤ values.length % 4) : lenientFrom values signs (61 :: text)
      = if 4 ≤ values.length % 4 + (signs + 1) then some (unpack values)
        else lenientFrom values (signs + 1) text := by
  rw [lenientFrom, if_pos (show isSign 61 = true from rfl), if_neg (by omega)]

/-- **Letters that are filled up are decoded.** -/
theorem lenientDecode_letters {values : List Sextet} (some_ : values.length % 4 ≠ 1) :
    lenientDecode (values.map letter ++ padding values.length) = some (unpack values) := by
  rw [lenientDecode, lenientFrom_letters, List.nil_append, padding]
  have cases_ : values.length % 4 = 0 ∨ values.length % 4 = 2 ∨ values.length % 4 = 3 := by omega
  rcases cases_ with remains | remains | remains <;> rw [remains]
  · show lenientFrom values 0 [] = _
    rw [lenientFrom, if_pos remains]
  · show lenientFrom values 0 [61, 61] = _
    rw [lenientFrom_sign _ remains.ge, if_neg (by omega), lenientFrom_sign _ remains.ge, if_pos (by omega)]
  · show lenientFrom values 0 [61] = _
    rw [lenientFrom_sign _ (by omega), if_pos (by omega)]

end UniApi.Lib.Base64
