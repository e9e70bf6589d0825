/-
**The signature of a Bedrock request.**

`get_signature` writes the payload with the JSON encoder of the standard library and signs a hash of that
text. `fetch_aws_response_stream` writes the same payload with the encoder of this repository, which does
not escape letters outside ASCII, and posts that text.

* `getSignature_hashes`: the hash that is signed is that of `signedBody`;
* `signature_covers_iff`: the bytes hashed are the bytes posted exactly when no string of the payload has a
  letter from the delete character on.
-/

import UniApi.Lib.JsonDump
import UniApi.Lib.LineEndings

namespace UniApi.Providers

open UniApi.Lib

/-! ### UTF-8 -/

/-- A code point that is no surrogate. -/
def charOf (point : ℕ) : Option Char :=
  if valid : point.isValidChar then some (Char.ofNatAux point valid) else none

/-- `str.encode("utf-8")`, which fails on a surrogate. -/
def encodeUtf8 (text : List ℕ) : Option Bytes := (text.mapM charOf).map Utf8.encode

theorem charOf_eq_some_iff {point : ℕ} {letter : Char} : charOf point = some letter ↔ letter.toNat = point := by
  unfold charOf
  constructor
  · intro isLetter
    by_cases valid : point.isValidChar
    · rw [dif_pos valid] at isLetter
      cases isLetter
      rfl
    · rw [dif_neg valid] at isLetter
      cases isLetter
  · rintro rfl
    have valid : letter.toNat.isValidChar := letter.valid
    rw [dif_pos valid]
    rfl

theorem mapM_charOf_eq_some_iff {text : List ℕ} {letters : List Char} :
    text.mapM charOf = some letters ↔ letters.map Char.toNat = text := by
  induction text generalizing letters with
  | nil =>
    rw [List.mapM_nil]
    exact ⟨fun same => by cases same; rfl, fun same => by rw [List.map_eq_nil_iff.mp same]; rfl⟩
  | cons point rest ih =>
    rw [List.mapM_cons]
    constructor
    · intro decoded
      obtain ⟨letter, isLetter, decoded⟩ := Option.bind_eq_some_iff.mp decoded
      obtain ⟨behind, isBehind, same⟩ := Option.bind_eq_some_iff.mp decoded
      cases same
      rw [List.map_cons, charOf_eq_some_iff.mp isLetter, ih.mp isBehind]
    · intro same
      cases letters with
      | nil => cases same
      | cons letter behind =>
        rw [List.map_cons, List.cons_eq_cons] at same
        rw [charOf_eq_some_iff.mpr same.1, ih.mpr same.2]
        rfl

theorem encodeUtf8_below {text : List ℕ} (plain : ∀ point ∈ text, point < 127) :
    ∃ bytes, encodeUtf8 text = some bytes ∧ ∀ byte ∈ bytes, byte.toNat < 127 := by
  have lettered : ∃ letters : List Char, letters.map Char.toNat = text := by
    induction text with
    | nil => exact ⟨[], rfl⟩
    | cons point rest ih =>
      obtain ⟨letters, same⟩ := ih fun other there => plain other (List.mem_cons_of_mem _ there)
      obtain ⟨letter, isLetter⟩ := Utf8.exists_char (v := point) (.inl (by
        have := plain point List.mem_cons_self
        omega))
      exact ⟨letter :: letters, by rw [List.map_cons, isLetter, same]⟩
  obtain ⟨letters, rfl⟩ := lettered
  refine ⟨Utf8.encode letters, by rw [encodeUtf8, mapM_charOf_eq_some_iff.mpr rfl]; rfl, fun byte isByte => ?_⟩
  obtain ⟨letter, isLetter, inLetter⟩ := List.mem_flatMap.mp isByte
  have low := plain letter.toNat (List.mem_map_of_mem isLetter)
  have value : letter.val.toNat = letter.toNat := rfl
  unfold String.utf8EncodeChar at inLetter
  simp only [value] at inLetter
  rw [if_pos (by omega)] at inLetter
  rw [List.mem_singleton.mp inLetter, Utf8.toNat_ofNat_small (by omega)]
  exact low

theorem encodeUtf8_high {text : List ℕ} {bytes : Bytes} (encoded : encodeUtf8 text = some bytes) {point : ℕ}
    (here : point ∈ text) (high : 127 ≤ point) : ∃ byte ∈ bytes, 127 ≤ byte.toNat := by
  obtain ⟨letters, decoded, rfl⟩ := Option.map_eq_some_iff.mp encoded
  rw [← mapM_charOf_eq_some_iff.mp decoded] at here
  obtain ⟨letter, isLetter, rfl⟩ := List.mem_map.mp here
  have nonempty : String.utf8EncodeChar letter ≠ [] := by
    unfold String.utf8EncodeChar
    dsimp only
    repeat' split
    all_goals exact List.cons_ne_nil _ _
  obtain ⟨byte, inLetter⟩ := List.exists_mem_of_ne_nil _ nonempty
  refine ⟨byte, List.mem_flatMap.mpr ⟨letter, isLetter, inLetter⟩, ?_⟩
  by_contra low
  have same := (mem_encodeChar_ascii (by omega)).mp inLetter
  omega

/-! ### The request -/

/-- What is hashed: `json.dumps(request_body).encode('utf-8')`, with the encoder of the standard library. -/
def signedBody (payload : JsonValue) : Option Bytes := encodeUtf8 (JsonDump.dumps true payload)

/-- What is posted: the text of the repository's `json.dumps`, which the client encodes. -/
def postedBody (payload : JsonValue) : Option Bytes := encodeUtf8 (JsonDump.dumps false payload)

/-- `hashlib.sha256(..).hexdigest()`, and the signing with the key of the day. -/
structure Signing where
  sha256Hex : Bytes → List ℕ
  sign : (secretKey dateStamp region service : List ℕ) → (text : Bytes) → List ℕ

/-- What a signature is made for. The path is quoted already. -/
structure SignedRequest where
  payload : JsonValue
  canonicalUri : List ℕ
  accessKey : List ℕ
  secretKey : List ℕ
  region : List ℕ
  host : List ℕ
  contentType : List ℕ
  acceptHeader : List ℕ
  amzDate : List ℕ
  dateStamp : List ℕ

structure SignatureHeaders where
  amzDate : List ℕ
  payloadHash : List ℕ
  authorizationHeader : List ℕ

def service : List ℕ := Utf8.points "bedrock"

def algorithm : List ℕ := Utf8.points "AWS4-HMAC-SHA256"

def signedHeaders : List ℕ :=
  Utf8.points "accept;content-type;host;x-amz-bedrock-accept;x-amz-content-sha256;x-amz-date"

def newline : List ℕ := [10]

namespace SignedRequest

variable (request : SignedRequest)

def canonicalHeaders (payloadHash : List ℕ) : List ℕ :=
  Utf8.points "accept:" ++ request.acceptHeader ++ newline ++
    Utf8.points "content-type:" ++ request.contentType ++ newline ++
    Utf8.points "host:" ++ request.host ++ newline ++
    Utf8.points "x-amz-bedrock-accept:" ++ request.acceptHeader ++ newline ++
    Utf8.points "x-amz-content-sha256:" ++ payloadHash ++ newline ++
    Utf8.points "x-amz-date:" ++ request.amzDate ++ newline

def canonicalRequest (payloadHash : List ℕ) : List ℕ :=
  Utf8.points "POST" ++ newline ++ request.canonicalUri ++ newline ++ newline ++
    request.canonicalHeaders payloadHash ++ newline ++ signedHeaders ++ newline ++ payloadHash

def credentialScope : List ℕ :=
  request.dateStamp ++ Utf8.points "/" ++ request.region ++ Utf8.points "/" ++ service ++
    Utf8.points "/aws4_request"

/-- `get_signature`. -/
def getSignature (signing : Signing) : Option SignatureHeaders := do
  let requestBody ← signedBody request.payload
  let payloadHash := signing.sha256Hex requestBody
  let canonical ← encodeUtf8 (request.canonicalRequest payloadHash)
  let stringToSign ← encodeUtf8 (algorithm ++ newline ++ request.amzDate ++ newline ++
    request.credentialScope ++ newline ++ signing.sha256Hex canonical)
  let signature := signing.sign request.secretKey request.dateStamp request.region service stringToSign
  return {
    amzDate := request.amzDate
    payloadHash := payloadHash
    authorizationHeader :=
      algorithm ++ Utf8.points " Credential=" ++ request.accessKey ++ Utf8.points "/" ++
        request.credentialScope ++ Utf8.points ", SignedHeaders=" ++ signedHeaders ++
        Utf8.points ", Signature=" ++ signature }

/-- The hash that is sent and signed is that of the text of the standard encoder. -/
theorem getSignature_hashes {signing : Signing} {headers : SignatureHeaders}
    (signed : request.getSignature signing = some headers) :
    ∃ body, signedBody request.payload = some body ∧ headers.payloadHash = signing.sha256Hex body := by
  unfold getSignature at signed
  obtain ⟨body, isBody, signed⟩ := Option.bind_eq_some_iff.mp signed
  obtain ⟨canonical, -, signed⟩ := Option.bind_eq_some_iff.mp signed
  obtain ⟨text, -, signed⟩ := Option.bind_eq_some_iff.mp signed
  cases signed
  exact ⟨body, isBody, rfl⟩

end SignedRequest

/-- **The signature covers the body** exactly when no key and no string of the payload has a letter from the
delete character on. -/
theorem signature_covers_iff (payload : JsonValue) :
    (∃ body, signedBody payload = some body ∧ postedBody payload = some body) ↔
      ∀ text ∈ JsonDump.strings payload, ∀ point ∈ text, point < 127 := by
  obtain ⟨signed, isSigned, low⟩ := encodeUtf8_below (JsonDump.dumps_below payload)
  constructor
  · rintro ⟨body, signs, posts⟩ text listed point here
    by_contra high
    obtain ⟨byte, inside, isHigh⟩ := encodeUtf8_high posts
      (JsonDump.mem_dumps listed here (Nat.le_of_not_lt high)) (Nat.le_of_not_lt high)
    have same : body = signed := Option.some.inj (signs.symm.trans isSigned)
    exact absurd (low byte (same ▸ inside)) (Nat.not_lt.mpr isHigh)
  · intro plain
    refine ⟨signed, isSigned, ?_⟩
    rw [postedBody, ← JsonDump.dumps_congr plain]
    exact isSigned

/-- A payload with an accent. -/
def accent : JsonValue := .object [([112], .string [233])]

/-- **A letter outside ASCII** is hashed as an escape and posted as it is. -/
theorem accent_not_covered :
    signedBody accent = some [123, 34, 112, 34, 58, 32, 34, 92, 117, 48, 48, 101, 57, 34, 125] ∧
      postedBody accent = some [123, 34, 112, 34, 58, 32, 34, 195, 169, 34, 125] ∧
      ¬ ∃ body, signedBody accent = some body ∧ postedBody accent = some body := by
  have signs : signedBody accent =
      some [123, 34, 112, 34, 58, 32, 34, 92, 117, 48, 48, 101, 57, 34, 125] := by decide
  have posts : postedBody accent = some [123, 34, 112, 34, 58, 32, 34, 195, 169, 34, 125] := by decide
  refine ⟨signs, posts, ?_⟩
  rintro ⟨body, signed, posted⟩
  have same := signs.symm.trans (signed.trans (posted.symm.trans posts))
  exact absurd same (by decide)

end UniApi.Providers
