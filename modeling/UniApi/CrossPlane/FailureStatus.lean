/-
**The two planes on the status of a semantic failure.**

Both planes look for an HTTP error status in five places, then into a table under the code, one under
the type, and for texts in the message. They differ in which error they look at, and in how they read
strings.

* `exception_statusCode`: the error and the payload that the Python plane looks at;
* `candidateStatus_eq`, `lookupText_code_eq`, `lookupText_type_eq`, `messageStatus_eq`: the steps;
* `semantic_status_agrees`: the statuses are equal where both read alike what is reached until one is found.
-/

import Mathlib.Data.List.TakeWhile
import UniApi.Front.Processor
import UniApi.Front.SemanticError
import UniApi.Upstream.StreamEvents

namespace UniApi.CrossPlane

open UniApi.Lib UniApi.Front UniApi.Upstream

/-! ### What the Python plane looks at -/

section View

variable (runtime : StreamRuntime) (payload : Value) (eventType : Bytes)

/-- The error that the Python plane looks at. -/
def readError : Value :=
  if isEarlyFailure runtime payload eventType then
    (errorObject runtime payload (protocolToken runtime (.string eventType)).1
      (responseStatus runtime payload).1 (payloadStatus runtime payload)).getD .null
  else fallbackErrorObject runtime payload

/-- The payload whose statuses the Python plane looks at. -/
def readPayloadOf : Value :=
  if isEarlyFailure runtime payload eventType then payload
  else fallbackPayload (fallbackErrorObject runtime payload)

variable {runtime payload eventType}

/-- The status of an error of `responses_failure_error`. -/
theorem failureError_statusCode {error : ResponsesSemanticError}
    (found : responsesFailureError runtime payload eventType = some error) :
    ∃ errorObj, errorObject runtime payload (protocolToken runtime (.string eventType)).1
        (responseStatus runtime payload).1 (payloadStatus runtime payload) = some errorObj ∧
      error.statusCode = responsesErrorStatusCode runtime errorObj payload := by
  unfold responsesFailureError at found
  dsimp only at found
  split at found
  · cases found
  · split at found
    · cases found
    · rename_i errorObj isObject
      refine ⟨errorObj, isObject, ?_⟩
      split at found
      · cases found
      · split at found
        · cases found
        · cases found
          rfl

/-- **What the status of a failure is computed from.** -/
theorem exception_statusCode {error : ResponsesSemanticError}
    (found : responsesFailureHttpException runtime payload eventType = some error) :
    error.statusCode = responsesErrorStatusCode runtime (readError runtime payload eventType)
      (readPayloadOf runtime payload eventType) := by
  unfold responsesFailureHttpException at found
  unfold readError readPayloadOf
  rw [← responsesFailureError_isSome]
  cases early : responsesFailureError runtime payload eventType with
  | some first =>
    rw [early] at found
    cases found
    obtain ⟨errorObj, isObject, status⟩ := failureError_statusCode early
    rw [Option.isSome_some, if_pos rfl, if_pos rfl, isObject, Option.getD_some, status]
  | none =>
    rw [early] at found
    dsimp only at found
    rw [Option.isSome_none, if_neg Bool.false_ne_true, if_neg Bool.false_ne_true]
    cases isNull : (fallbackErrorObject runtime payload).isNull with
    | true => rw [isNull, if_pos rfl] at found; cases found
    | false =>
      rw [isNull, if_neg Bool.false_ne_true] at found
      obtain ⟨errorObj, isObject, status⟩ := failureError_statusCode found
      have counted : runtime.safeGet.counts (fallbackErrorObject runtime payload) = true := by
        rw [← fallback_isSome, found, Option.isSome_some]
      have follows : follow (fallbackPayload (fallbackErrorObject runtime payload)) ["error"] =
          some (fallbackErrorObject runtime payload) := by
        simp [follow, fallbackPayload, Value.get, Value.asObject, JsonMap.get]
      have keyed : hasKey (fallbackPayload (fallbackErrorObject runtime payload)) "error" = true := by
        simp [hasKey, fallbackPayload, Value.get, Value.asObject, JsonMap.get]
      have got : runtime.safeGet.get (fallbackPayload (fallbackErrorObject runtime payload)) ["error"]
          .null = fallbackErrorObject runtime payload := by
        rw [runtime.safeGet.get_of_counts (by rwa [follows, Option.getD_some]), follows,
          Option.getD_some]
      unfold errorObject at isObject
      rw [token_error, if_pos rfl, if_pos keyed] at isObject
      dsimp only at isObject
      rw [got, isNull, if_neg Bool.false_ne_true] at isObject
      rw [status, ← Option.some.inj isObject]

end View

/-! ### Statuses -/

/-- An HTTP error status that the Python plane reads in one place. -/
def explicitStatus (runtime : StreamRuntime) (value : Value) : Option Nat :=
  (intOf runtime value).bind fun status =>
    if 400 ≤ status ∧ status ≤ 599 then some status.toNat else none

/-- A status of the domain: nothing, an integer, or a string of letters and digits. -/
inductive IsStatus : Value → Prop where
  | absent : IsStatus .null
  | posInt (value : Nat) : IsStatus (.number (.posInt value))
  | negInt (value : Int) (negative : value < 0) : IsStatus (.number (.negInt value))
  | text (text : Bytes) (points : List CodePoint) (decoded : Utf8.decodeAll text = some points)
      (letters : ∀ point ∈ points, PyText.isSpace point = false ∧ point ∉ [43, 45, 95]) :
      IsStatus (.string text)

/-- The digits of a status are ASCII, and `int` takes that many. -/
def PlainDigits (runtime : StreamRuntime) (value : Value) : Prop :=
  ∀ text points, value = .string text → Utf8.decodeAll text = some points →
    points.length ≤ 4300 ∧ ∀ point ∈ points, (runtime.digit point).isSome = true → point < 128

section Statuses

variable {runtime : StreamRuntime}

/-- `int` of a text without white space, signs and underscores. -/
theorem parseInt_letters {digit : CodePoint → Option Nat} {text : PyText}
    (letters : ∀ point ∈ text, PyText.isSpace point = false ∧ point ∉ [43, 45, 95])
    (short : text.length ≤ 4300) :
    PyText.parseInt digit text =
      if text.isEmpty then none
      else (text.mapM digit).map fun digits =>
        ((digits.foldl (fun value next => 10 * value + next) 0 : Nat) : Int) := by
  have stripped : PyText.strip text = text :=
    PyText.strip_eq_self fun point isPoint => (letters point isPoint).1
  have noSign : ∀ sign ∈ [43, 45, 95], sign ∉ text := fun sign isSign isPoint =>
    (letters sign isPoint).2 isSign
  unfold PyText.parseInt
  rw [stripped, PyText.splitSign_eq_self (noSign 45 (by simp)) (noSign 43 (by simp))]
  dsimp only
  rw [List.splitOn_eq_singleton (noSign 95 (by simp))]
  simp only [List.any_cons, List.any_nil, Bool.or_false, List.flatten_cons, List.flatten_nil,
    List.append_nil, Bool.false_eq_true, if_false]
  cases text with
  | nil => rfl
  | cons first rest =>
    have notLong : decide (4300 < (first :: rest).length) = false := decide_eq_false (by omega)
    rw [notLong]
    cases (first :: rest).mapM digit <;> rfl

/-- A list of ASCII letters has the values of its digits, if all are digits. -/
theorem mapM_digit {text : PyText} (ascii : PyText.Ascii text) :
    text.mapM runtime.digit =
      if text.all fun point => 48 ≤ point && point ≤ 57 then some (text.map (· - 48)) else none := by
  induction text with
  | nil => rfl
  | cons point rest ih =>
    have restAscii : PyText.Ascii rest := fun other isOther => ascii other (List.mem_cons_of_mem _ isOther)
    rw [List.mapM_cons, runtime.digit_ascii point (ascii point List.mem_cons_self), ih restAscii,
      List.all_cons]
    by_cases isDigit : 48 ≤ point ∧ point ≤ 57
    · have digitTest : (decide (48 ≤ point) && decide (point ≤ 57)) = true := by simpa using isDigit
      rw [if_pos isDigit, digitTest, Bool.true_and]
      cases rest.all fun point => 48 ≤ point && point ≤ 57 <;> rfl
    · have digitTest : (decide (48 ≤ point) && decide (point ≤ 57)) = false := by
        simpa [Bool.eq_false_iff] using isDigit
      rw [if_neg isDigit, digitTest, Bool.false_and]
      rfl

/-- A text with a letter that is no digit does not decode to digits. -/
theorem mapM_eq_none {digit : CodePoint → Option Nat} {text : PyText} {point : CodePoint}
    (isPoint : point ∈ text) (noDigit : digit point = none) : text.mapM digit = none := by
  induction text with
  | nil => cases isPoint
  | cons first rest ih =>
    rw [List.mapM_cons]
    rcases List.mem_cons.mp isPoint with rfl | inRest
    · rw [noDigit]
      rfl
    · rw [ih inRest]
      cases digit first <;> rfl

theorem parseU64_eq_none {text : Bytes} {byte : UInt8} (isByte : byte ∈ text)
    (high : 128 ≤ byte.toNat) : parseU64 text = none := by
  have inDigits : byte ∈ if text.head? = some 43 then text.tail else text := by
    split
    · rename_i plus
      cases text with
      | nil => cases plus
      | cons first rest =>
        rcases List.mem_cons.mp isByte with rfl | inRest
        · cases plus
          exact absurd high (by decide)
        · exact inRest
    · exact isByte
  have notAll : ((if text.head? = some 43 then text.tail else text).all fun byte =>
      48 ≤ byte && byte ≤ 57) = false := by
    rw [Bool.eq_false_iff]
    intro all
    have small := List.all_eq_true.mp all byte inDigits
    rw [Bool.and_eq_true, decide_eq_true_eq, decide_eq_true_eq, UInt8.le_iff_toNat_le,
      UInt8.le_iff_toNat_le] at small
    exact absurd (high.trans small.2) (by decide)
  unfold parseU64
  dsimp only
  rw [notAll, Bool.not_false, Bool.or_true, if_pos rfl]

theorem filter_range (value : Nat) :
    (if value < 2 ^ 64 then some value else none).filter (fun status =>
        400 ≤ status && status ≤ 599) =
      if 400 ≤ (value : Int) ∧ (value : Int) ≤ 599 then some (value : Int).toNat else none := by
  by_cases range : 400 ≤ value ∧ value ≤ 599
  · have small : value < 2 ^ 64 := by omega
    have inRange : 400 ≤ (value : Int) ∧ (value : Int) ≤ 599 := by omega
    have test : (decide (400 ≤ value) && decide (value ≤ 599)) = true := by simpa using range
    rw [if_pos small, if_pos inRange, Option.filter_some, test, if_pos rfl, Int.toNat_natCast]
  · have outOfRange : ¬(400 ≤ (value : Int) ∧ (value : Int) ≤ 599) := by omega
    have test : (decide (400 ≤ value) && decide (value ≤ 599)) = false := by
      simpa [Bool.eq_false_iff] using range
    rw [if_neg outOfRange]
    split
    · rw [Option.filter_some, test, if_neg Bool.false_ne_true]
    · rfl

/-- A status of ASCII letters and digits is the same number to both planes. -/
theorem parseU64_ascii {text : Bytes} {points : List CodePoint} (same : text.map UInt8.toNat = points)
    (noPlus : 43 ∉ points) (ascii : PyText.Ascii points) :
    (parseU64 text).filter (fun status => 400 ≤ status && status ≤ 599) =
      (if points.isEmpty then none
        else (points.mapM runtime.digit).map fun digits =>
          ((digits.foldl (fun value next => 10 * value + next) 0 : Nat) : Int)).bind fun status =>
        if 400 ≤ status ∧ status ≤ 599 then some status.toNat else none := by
  have digits : (if text.head? = some 43 then text.tail else text) = text := by
    cases text with
    | nil => rfl
    | cons first rest =>
      rw [if_neg]
      intro plus
      cases plus
      exact noPlus (same ▸ List.mem_cons_self)
  have isEmpty : points.isEmpty = text.isEmpty := by rw [← same, List.isEmpty_map]
  have all : (points.all fun point => 48 ≤ point && point ≤ 57) =
      text.all fun byte => 48 ≤ byte && byte ≤ 57 := by
    rw [← same, List.all_map]
    rfl
  have value : (points.map (· - 48)).foldl (fun value next => 10 * value + next) 0 =
      text.foldl (fun value byte => 10 * value + (byte.toNat - 48)) 0 := by
    rw [← same, List.map_map, List.foldl_map]
    rfl
  unfold parseU64
  dsimp only
  rw [digits, mapM_digit ascii, isEmpty, all]
  cases text.isEmpty with
  | true => rfl
  | false =>
    cases text.all fun byte => 48 ≤ byte && byte ≤ 57 with
    | false => rfl
    | true =>
      rw [if_pos rfl, Bool.not_true, Bool.or_false, if_neg Bool.false_ne_true,
        if_neg Bool.false_ne_true, Option.map_some, Option.bind_some, value]
      exact filter_range _

/-- **Both planes read a status alike.** -/
theorem candidateStatus_eq {value : Value} (isStatus : IsStatus value)
    (plain : PlainDigits runtime value) : candidateStatus value = explicitStatus runtime value := by
  cases isStatus with
  | absent => rfl
  | posInt value =>
    unfold candidateStatus explicitStatus intOf Value.asU64 Value.asStr
    rw [Option.bind_none, Option.or_none, Option.bind_some]
    exact filter_range value
  | negInt value negative =>
    have outOfRange : ¬(400 ≤ value ∧ value ≤ 599) := by omega
    unfold candidateStatus explicitStatus intOf Value.asU64 Value.asStr
    rw [Option.bind_none, Option.or_none, Option.bind_some, if_neg outOfRange]
    rfl
  | text text points decoded letters =>
    obtain ⟨short, digitsAscii⟩ := plain text points rfl decoded
    have asPoints : pyText text = points := by rw [pyText, decoded, Option.getD_some]
    have reads : intOf runtime (.string text) = PyText.parseInt runtime.digit (pyText text) := rfl
    unfold candidateStatus explicitStatus Value.asU64 Value.asStr
    rw [Option.bind_some, Option.none_or, reads, asPoints, parseInt_letters letters short]
    by_cases ascii : PyText.Ascii points
    · exact parseU64_ascii (Utf8.map_toNat_of_decodeAll decoded ascii)
        (fun plus => (letters 43 plus).2 (by simp)) ascii
    · -- a letter outside ASCII is a digit to neither plane
      unfold PyText.Ascii at ascii
      push Not at ascii
      obtain ⟨point, isPoint, high⟩ := ascii
      have noDigit : runtime.digit point = none := by
        rw [← Option.not_isSome_iff_eq_none]
        exact fun isDigit => absurd (digitsAscii point isPoint isDigit) (not_lt.mpr high)
      have highByte : ∃ byte ∈ text, 128 ≤ byte.toNat := by
        by_contra allSmall
        push Not at allSmall
        rw [Utf8.decodeAll_ascii allSmall, Option.some.injEq] at decoded
        rw [← decoded] at isPoint
        obtain ⟨byte, isByte, rfl⟩ := List.mem_map.mp isPoint
        exact absurd (allSmall byte isByte) (not_lt.mpr high)
      obtain ⟨byte, isByte, highValue⟩ := highByte
      rw [parseU64_eq_none isByte highValue, mapM_eq_none isPoint noDigit]
      cases points.isEmpty <;> rfl

end Statuses

/-! ### Tables -/

/-- The words of a table. -/
def tableWords (table : List (List String × Nat)) : List String := table.flatMap Prod.fst

section Words

variable {runtime : StreamRuntime} {table : List (List String × Nat)}

/-- **The rows of a table are found alike**, until one is found. -/
def RowsAlike (found found' : String → Bool) : List (List String × Nat) → Prop
  | [] => True
  | row :: rows => row.1.any found = row.1.any found' ∧
    (row.1.any found = false → RowsAlike found found' rows)

theorem RowsAlike.firstStatus_eq {found found' : String → Bool} (alike : RowsAlike found found' table) :
    firstStatus table found = firstStatus table found' := by
  unfold firstStatus
  congr 1
  induction table with
  | nil => rfl
  | cons row rows ih =>
    obtain ⟨here, later⟩ := alike
    rw [List.find?_cons, List.find?_cons, ← here]
    cases isFound : row.1.any found with
    | true => rfl
    | false => exact ih (later isFound)

theorem firstStatus_eq_none {test : String → Bool}
    (noWord : ∀ word ∈ tableWords table, test word = false) : firstStatus table test = none := by
  rw [firstStatus, Option.map_eq_none_iff, List.find?_eq_none]
  intro row isRow
  rw [Bool.not_eq_true, List.any_eq_false]
  exact fun word isWord => Bool.eq_false_iff.mp (noWord word (List.mem_flatMap.mpr ⟨row, isRow, isWord⟩))

theorem lookupText_map (entries : List (String × Nat)) (text : PyText) :
    lookupText entries text =
      ((entries.map fun entry => (Utf8.points entry.1, entry.2)).find? (·.1 == text)).map Prod.snd := by
  rw [List.find?_map, Option.map_map]
  rfl

theorem firstStatus_map (table : List (List String × Nat)) (text : PyText) :
    firstStatus table (Utf8.points · == text) =
      ((table.map fun entry => (entry.1.map Utf8.points, entry.2)).find? fun entry =>
        entry.1.any (· == text)).map Prod.snd := by
  rw [List.find?_map, Option.map_map, firstStatus]
  congr 2
  funext entry
  show entry.1.any (Utf8.points · == text) = (entry.1.map Utf8.points).any (· == text)
  rw [List.any_map]
  rfl

/-- Two tables that give their words the same statuses give every text the same status. -/
theorem lookupText_eq_firstStatus {entries : List (String × Nat)}
    (same : ∀ text ∈ entries.map (Utf8.points ·.1) ++ (tableWords table).map Utf8.points,
      lookupText entries text = firstStatus table (Utf8.points · == text)) (text : PyText) :
    lookupText entries text = firstStatus table (Utf8.points · == text) := by
  by_cases isWord : text ∈ entries.map (Utf8.points ·.1) ++ (tableWords table).map Utf8.points
  · exact same text isWord
  · rw [List.mem_append, not_or] at isWord
    rw [firstStatus_eq_none fun word inTable => beq_false_of_ne fun found =>
      isWord.2 (List.mem_map.mpr ⟨word, inTable, found⟩), lookupText]
    have noEntry : (entries.find? fun entry => Utf8.points entry.1 == text) = none := by
      rw [List.find?_eq_none]
      intro entry isEntry
      rw [beq_iff_eq]
      exact fun found => isWord.1 (List.mem_map.mpr ⟨entry, isEntry, found⟩)
    rw [noEntry]
    rfl

/-- **Both tables of codes** are one. -/
theorem lookupText_code_eq (text : PyText) :
    lookupText failureStatusByCode text =
      firstStatus statusByCode fun word => Utf8.points word == text := by
  refine lookupText_eq_firstStatus ?_ text
  simp only [lookupText_map, firstStatus_map, failureStatusByCode, statusByCode, tableWords,
    List.flatMap_cons, List.flatMap_nil, List.cons_append, List.nil_append, List.map_cons, List.map_nil]
  repeat rw [Utf8.points_ofList]
  decide

/-- **Both tables of types** are one. -/
theorem lookupText_type_eq (text : PyText) :
    lookupText failureStatusByType text =
      firstStatus statusByType fun word => Utf8.points word == text := by
  refine lookupText_eq_firstStatus ?_ text
  simp only [lookupText_map, firstStatus_map, failureStatusByType, statusByType, tableWords,
    List.flatMap_cons, List.flatMap_nil, List.cons_append, List.nil_append, List.map_cons, List.map_nil]
  repeat rw [Utf8.points_ofList]
  decide

/-- **Both cascades over a message** are one. -/
theorem messageStatus_eq (message : PyText) :
    messageStatus message =
      (firstStatus Front.statusByMessage fun marker =>
        isSubstring (Utf8.points marker) message).getD 500 := rfl

end Words

/-! ### The domain and the condition -/

/-- A payload of the domain: whatever error is in it, its statuses are statuses, and so are those beside it. -/
structure IsEvent (payload : Value) : Prop where
  inError : ∀ key ∈ ["status_code", "status"], IsStatus (getOrNone (getOrNone payload "error") key)
  inResponseError : ∀ key ∈ ["status_code", "status"], IsStatus (getOrNone (responseError payload) key)
  beside : ∀ keys ∈ [["status_code"], ["status"], ["response", "status_code"]],
    IsStatus ((follow payload keys).getD .null)

/-- The places of a status: in the error, then beside it. -/
def statusPlaces (error payload : Value) : List Value :=
  ["status_code", "status"].map (getOrNone error) ++
    [["status_code"], ["status"], ["response", "status_code"]].map fun keys =>
      (follow payload keys).getD .null

/-- **The places of a status are read alike** until one is found: in each, both planes look at the same
value, with plain digits, or neither finds an HTTP error status. -/
def PlacesAlike (runtime : StreamRuntime) : List Value → List Value → Prop
  | value :: values, value' :: values' =>
    (value = value' ∧ PlainDigits runtime value ∨
        candidateStatus value = none ∧ explicitStatus runtime value' = none) ∧
      (candidateStatus value = none → PlacesAlike runtime values values')
  | _, _ => True

/-- A member of an error as the Python plane looks it up. -/
def pyIdentifier (runtime : StreamRuntime) (error : Value) (field : String) : PyText :=
  runtime.lower ((boundedOptionalText runtime 256 (getOrNone error field)).getD [])

/-- The value in which an error has its message. -/
def messageValue (error : Value) : Value :=
  if error.isObject then getOrNone error "message" else error

/-- The message of an error as the Python plane searches it. -/
def pyMessage (runtime : StreamRuntime) (error : Value) : PyText :=
  runtime.lower (boundedStreamErrorText runtime 4096 (messageValue error))

/-- **A failure is read alike**: each step of the cascades is, that is reached because no step before gives
a status. -/
structure FailureReadAlike (runtime : StreamRuntime) (payload : Value) (eventType : Bytes)
    (error : Option Value) : Prop where
  places : PlacesAlike runtime (statusPlaces (error.getD .null) payload)
    (statusPlaces (readError runtime payload eventType) (readPayloadOf runtime payload eventType))
  code : (∀ value ∈ statusPlaces (error.getD .null) payload, candidateStatus value = none) →
    RowsAlike (Utf8.points · == identifier error (Utf8.lit "code"))
      (Utf8.points · == pyIdentifier runtime (readError runtime payload eventType) "code") statusByCode
  type : (∀ value ∈ statusPlaces (error.getD .null) payload, candidateStatus value = none) →
    firstStatus statusByCode (Utf8.points · == identifier error (Utf8.lit "code")) = none →
    RowsAlike (Utf8.points · == identifier error (Utf8.lit "type"))
      (Utf8.points · == pyIdentifier runtime (readError runtime payload eventType) "type") statusByType
  message : (∀ value ∈ statusPlaces (error.getD .null) payload, candidateStatus value = none) →
    firstStatus statusByCode (Utf8.points · == identifier error (Utf8.lit "code")) = none →
    firstStatus statusByType (Utf8.points · == identifier error (Utf8.lit "type")) = none →
    RowsAlike (fun marker => isSubstring (Utf8.points marker) ((semanticDetail error).map PyText.lowerAscii))
      (fun marker => isSubstring (Utf8.points marker)
        (pyMessage runtime (readError runtime payload eventType))) Front.statusByMessage

/-! ### The cascades -/

section Cascades

variable {runtime : StreamRuntime} {payload : Value} {eventType : Bytes}

theorem PlacesAlike.findSome?_eq {values values' : List Value} (alike : PlacesAlike runtime values values')
    (sameLength : values.length = values'.length) (areStatuses : ∀ value ∈ values, IsStatus value) :
    values.findSome? candidateStatus = values'.findSome? (explicitStatus runtime) := by
  induction values generalizing values' with
  | nil => rw [List.length_eq_zero_iff.mp sameLength.symm]; rfl
  | cons value values ih =>
    obtain ⟨value', values', rfl⟩ := List.exists_cons_of_length_eq_add_one sameLength.symm
    obtain ⟨here, later⟩ := alike
    have same : candidateStatus value = explicitStatus runtime value' := by
      rcases here with ⟨rfl, plain⟩ | ⟨none_, none_'⟩
      · exact candidateStatus_eq (areStatuses value List.mem_cons_self) plain
      · rw [none_, none_']
    rw [List.findSome?_cons, List.findSome?_cons, ← same]
    cases found : candidateStatus value with
    | some status => rfl
    | none =>
      exact ih (later found) (Nat.succ.inj sameLength) fun other there =>
        areStatuses other (List.mem_cons_of_mem _ there)

theorem reduceOption_findSome (candidates : List (Option Value)) :
    candidates.reduceOption.findSome? candidateStatus =
      (candidates.map (·.getD .null)).findSome? candidateStatus := by
  induction candidates with
  | nil => rfl
  | cons candidate rest ih =>
    cases candidate with
    | none => rw [List.reduceOption_cons_of_none, ih]; rfl
    | some value => rw [List.reduceOption_cons_of_some, List.map_cons, List.findSome?_cons, ih]; rfl

theorem bind_get_getD (error : Option Value) (key : String) :
    (error.bind (·.get (Utf8.lit key))).getD .null = getOrNone (error.getD .null) key := by
  cases error <;> rfl

theorem explicitStatus_safeGet {keys : List String}
    (isStatus : IsStatus ((follow payload keys).getD .null)) :
    explicitStatus runtime (runtime.safeGet.get payload keys .null) =
      explicitStatus runtime ((follow payload keys).getD .null) := by
  rw [runtime.safeGet.get_eq]
  cases found : follow payload keys with
  | none => rfl
  | some leaf =>
    rw [found, Option.getD_some] at isStatus
    rw [Option.getD_some]
    dsimp only
    by_cases kept : (truthy leaf || runtime.safeGet.keepsFalsy) = true
    · rw [if_pos kept]
    · -- a falsy status is no HTTP error status
      rw [if_neg kept]
      have falsy : truthy leaf = false := by
        rw [Bool.or_eq_true, not_or] at kept
        exact Bool.eq_false_iff.mpr kept.1
      cases isStatus with
      | absent => rfl
      | posInt value =>
        have zero : value = 0 := by simpa [truthy] using falsy
        rw [zero]
        rfl
      | negInt value negative =>
        have zero : value = 0 := by simpa [truthy] using falsy
        omega
      | text text points decoded letters =>
        have empty : text = [] := by simpa [truthy] using falsy
        rw [empty]
        rfl

/-- The statuses beside the error that the Python plane looks at are statuses. -/
theorem readPayload_statuses (isEvent : IsEvent payload) :
    ∀ keys ∈ [["status_code"], ["status"], ["response", "status_code"]],
      IsStatus ((follow (readPayloadOf runtime payload eventType) keys).getD .null) := by
  intro keys isKeys
  unfold readPayloadOf
  split
  · exact isEvent.beside keys isKeys
  · simp only [List.mem_cons, List.not_mem_nil, or_false] at isKeys
    rcases isKeys with rfl | rfl | rfl <;> exact .absent

/-- The statuses of the Python plane, in one list. -/
theorem explicitStatusCode_eq (errorObj : Value) {payload : Value}
    (areStatuses : ∀ keys ∈ [["status_code"], ["status"], ["response", "status_code"]],
      IsStatus ((follow payload keys).getD .null)) :
    explicitStatusCode runtime ([getOrNone errorObj "status_code", getOrNone errorObj "status"] ++
        payloadStatuses runtime payload) =
      (statusPlaces errorObj payload).findSome? (explicitStatus runtime) := by
  have each := fun keys isKeys => @explicitStatus_safeGet runtime payload keys (areStatuses keys isKeys)
  unfold statusPlaces payloadStatuses explicitStatusCode
  simp only [List.map_cons, List.map_nil, List.cons_append, List.nil_append, List.findSome?_cons,
    List.findSome?_nil]
  rw [← each ["status_code"] (by simp), ← each ["status"] (by simp),
    ← each ["response", "status_code"] (by simp)]
  rfl

/-- The statuses of the front, in one list. -/
theorem statusCandidates_eq (error : Option Value) :
    (statusCandidates error payload).reduceOption.findSome? candidateStatus =
      (statusPlaces (error.getD .null) payload).findSome? candidateStatus := by
  have single : ∀ key, (payload.get (Utf8.lit key)).getD .null = (follow payload [key]).getD .null :=
    fun key => (follow_singleton payload key).symm
  have nested : (inResponse payload (Utf8.lit "status_code")).getD .null =
      (follow payload ["response", "status_code"]).getD .null := by
    unfold inResponse
    rw [follow]
    cases payload.get (Utf8.lit "response") with
    | none => rfl
    | some response => exact (follow_singleton response "status_code").symm
  rw [reduceOption_findSome]
  unfold statusCandidates statusPlaces
  simp only [List.map_cons, List.map_nil, List.cons_append, List.nil_append]
  rw [bind_get_getD, bind_get_getD, single, single, nested]

theorem lookupText_nil {entries : List (String × Nat)}
    (nonempty : entries.all (Utf8.points ·.1 != []) = true) : lookupText entries [] = none := by
  rw [lookupText, Option.map_eq_none_iff, List.find?_eq_none]
  intro entry isEntry
  rw [beq_iff_eq]
  exact bne_iff_ne.mp (List.all_eq_true.mp nonempty entry isEntry)

/-- **The status of an error in Python** is the first that one of the steps gives. -/
theorem responsesErrorStatusCode_eq (errorObj payload : Value) :
    responsesErrorStatusCode runtime errorObj payload =
      ((((explicitStatusCode runtime ([getOrNone errorObj "status_code", getOrNone errorObj "status"] ++
              payloadStatuses runtime payload)).or
            (lookupText failureStatusByCode (pyIdentifier runtime errorObj "code"))).or
          (lookupText failureStatusByType (pyIdentifier runtime errorObj "type"))).getD
        (messageStatus (pyMessage runtime errorObj))) := by
  unfold responsesErrorStatusCode pyMessage messageValue
  by_cases isObject : errorObj.isObject = true
  · rw [if_pos isObject, if_pos isObject]
    unfold pyIdentifier
    cases explicitStatusCode runtime ([getOrNone errorObj "status_code", getOrNone errorObj "status"] ++
        payloadStatuses runtime payload) with
    | some status => rfl
    | none =>
      dsimp only
      cases lookupText failureStatusByCode
          (runtime.lower ((boundedOptionalText runtime 256 (getOrNone errorObj "code")).getD [])) with
      | some status => rfl
      | none =>
        dsimp only
        cases lookupText failureStatusByType
            (runtime.lower ((boundedOptionalText runtime 256 (getOrNone errorObj "type")).getD [])) with
        | some status => rfl
        | none => rfl
  · have noMember : ∀ key, getOrNone errorObj key = .null := by
      intro key
      rw [Bool.not_eq_true, Value.isObject, Option.isSome_eq_false_iff, Option.isNone_iff_eq_none] at isObject
      rw [getOrNone, Value.get, isObject]
      rfl
    have noText : ∀ field, pyIdentifier runtime errorObj field = [] := by
      intro field
      rw [pyIdentifier, noMember]
      exact runtime.lower_isFold.ascii [] (List.forall_mem_nil _)
    have noCode : lookupText failureStatusByCode [] = none := by
      refine lookupText_nil ?_
      simp only [failureStatusByCode, List.all_cons, List.all_nil]
      repeat rw [Utf8.points_ofList]
      rfl
    have noType : lookupText failureStatusByType [] = none := by
      refine lookupText_nil ?_
      simp only [failureStatusByType, List.all_cons, List.all_nil]
      repeat rw [Utf8.points_ofList]
      rfl
    have noOwn : explicitStatusCode runtime ([.null, .null] ++ payloadStatuses runtime payload) =
        explicitStatusCode runtime (payloadStatuses runtime payload) := rfl
    rw [if_neg isObject, if_neg isObject, noText, noText, noCode, noType, noMember, noMember, noOwn,
      Option.or_none, Option.or_none]
    cases explicitStatusCode runtime (payloadStatuses runtime payload) <;> rfl

theorem statusPlaces_areStatuses (isEvent : IsEvent payload) :
    ∀ value ∈ statusPlaces ((semanticErrorObject payload eventType).getD .null) payload, IsStatus value := by
  have ofError : ∀ key ∈ ["status_code", "status"],
      IsStatus (getOrNone ((semanticErrorObject payload eventType).getD .null) key) := by
    have inError : ∀ key ∈ ["status_code", "status"],
        IsStatus (getOrNone ((payload.get (Utf8.lit "error")).getD .null) key) := isEvent.inError
    have ofResponse : (inResponse payload (Utf8.lit "error")).getD .null = responseError payload := by
      unfold inResponse responseError
      rw [follow]
      cases payload.get (Utf8.lit "response") with
      | none => rfl
      | some response => exact (follow_singleton response "error").symm
    unfold semanticErrorObject
    by_cases failed : eqIgnoreAsciiCase eventType (Utf8.lit "response.failed") = true
    · rw [if_pos failed]
      cases found : inResponse payload (Utf8.lit "error") with
      | none => exact inError
      | some error =>
        rw [found, Option.getD_some] at ofResponse
        rw [Option.some_or, Option.getD_some, ofResponse]
        exact isEvent.inResponseError
    · rw [if_neg failed, Option.or_self]
      exact inError
  intro value there
  rcases List.mem_append.mp there with inError | beside
  · obtain ⟨key, isKey, rfl⟩ := List.mem_map.mp inError
    exact ofError key isKey
  · obtain ⟨keys, isKeys, rfl⟩ := List.mem_map.mp beside
    exact isEvent.beside keys isKeys

end Cascades

/-- **A semantic failure has one status on both planes** where it is read alike: for every payload of
the domain that both planes take for a failure. -/
theorem semantic_status_agrees {runtime : StreamRuntime} {payload : Value} {eventType : Bytes}
    {error : ResponsesSemanticError} (isEvent : IsEvent payload)
    (fails : responsesFailureHttpException runtime payload eventType = some error)
    (alike : FailureReadAlike runtime payload eventType (semanticErrorObject payload eventType)) :
    (responsesSemanticError payload eventType).1 = error.statusCode := by
  have places := alike.places.findSome?_eq rfl (statusPlaces_areStatuses isEvent)
  rw [exception_statusCode fails, responsesErrorStatusCode_eq, semanticStatus_eq, statusCandidates_eq,
    explicitStatusCode_eq _ (readPayload_statuses isEvent), ← places, lookupText_code_eq, lookupText_type_eq]
  -- each step is the same on both planes, if it is reached
  cases found : (statusPlaces ((semanticErrorObject payload eventType).getD .null) payload).findSome?
      candidateStatus with
  | some status => rfl
  | none =>
    have noStatus := List.findSome?_eq_none_iff.mp found
    rw [← (alike.code noStatus).firstStatus_eq]
    cases isCode : firstStatus statusByCode
        (Utf8.points · == identifier (semanticErrorObject payload eventType) (Utf8.lit "code")) with
    | some status => rfl
    | none =>
      rw [← (alike.type noStatus isCode).firstStatus_eq]
      cases isType : firstStatus statusByType
          (Utf8.points · == identifier (semanticErrorObject payload eventType) (Utf8.lit "type")) with
      | some status => rfl
      | none =>
        rw [messageStatus_eq, ← (alike.message noStatus isCode isType).firstStatus_eq]
        rfl

/-! ### One event each -/

/-- An error with a status, and with a code that only Python strips. -/
def limitedError : Value :=
  .object [(Utf8.lit "error", .object [
      (Utf8.lit "code", .string (Utf8.lit "invalid_api_key" ++ [0x1C])),
      (Utf8.lit "status_code", .number (.posInt 429))]),
    (Utf8.lit "type", .string (Utf8.lit "error"))]

theorem limitedError_isEvent : IsEvent limitedError := by
  refine ⟨fun key isKey => ?_, fun key isKey => ?_, fun keys isKeys => ?_⟩
  · simp only [List.mem_cons, List.not_mem_nil, or_false] at isKey
    rcases isKey with rfl | rfl
    · exact .posInt 429
    · exact .absent
  · exact .absent
  · simp only [List.mem_cons, List.not_mem_nil, or_false] at isKeys
    rcases isKeys with rfl | rfl | rfl <;> exact .absent

theorem limitedError_isEarly : isEarlyFailure StreamRuntime.plain limitedError (Utf8.lit "error") = true := by
  decide

theorem limitedError_alike : FailureReadAlike StreamRuntime.plain limitedError (Utf8.lit "error")
    (semanticErrorObject limitedError (Utf8.lit "error")) := by
  have status : candidateStatus
      (getOrNone ((semanticErrorObject limitedError (Utf8.lit "error")).getD .null) "status_code") =
        some 429 := rfl
  have reached : ¬ ∀ value ∈ statusPlaces
      ((semanticErrorObject limitedError (Utf8.lit "error")).getD .null) limitedError,
        candidateStatus value = none := by
    intro noStatus
    have none_ := noStatus _ List.mem_cons_self
    rw [status] at none_
    cases none_
  refine ⟨?_, fun noStatus => absurd noStatus reached, fun noStatus => absurd noStatus reached,
    fun noStatus => absurd noStatus reached⟩
  have sameError : readError StreamRuntime.plain limitedError (Utf8.lit "error") =
      (semanticErrorObject limitedError (Utf8.lit "error")).getD .null := by
    rw [readError, if_pos limitedError_isEarly, errorObject, if_pos token_error]
    rfl
  rw [sameError, readPayloadOf, if_pos limitedError_isEarly]
  refine ⟨.inl ⟨rfl, fun text points isText => by cases isText⟩, fun none_ => ?_⟩
  rw [status] at none_
  cases none_

/-- The status of an error event is found before its code is looked up. -/
theorem semantic_status_agrees_limited :
    ∃ error,
      responsesFailureHttpException StreamRuntime.plain limitedError (Utf8.lit "error") = some error ∧
        (responsesSemanticError limitedError (Utf8.lit "error")).1 = error.statusCode := by
  have fails : (responsesFailureHttpException StreamRuntime.plain limitedError (Utf8.lit "error")).isSome
      = true := by
    rw [responsesFailureHttpException_isSome, limitedError_isEarly, Bool.true_or]
  obtain ⟨error, found⟩ := Option.isSome_iff_exists.mp fails
  exact ⟨error, found, semantic_status_agrees limitedError_isEvent found limitedError_alike⟩

/-- A failed response without an error, and an error beside it. -/
def errorBeside : Value :=
  .object [(Utf8.lit "error", .object [(Utf8.lit "code", .string (Utf8.lit "rate_limit_exceeded"))]),
    (Utf8.lit "response", .object [(Utf8.lit "error", .null),
      (Utf8.lit "status", .string (Utf8.lit "failed"))]),
    (Utf8.lit "type", .string (Utf8.lit "response.failed"))]

/-- **A null error of the response hides the error beside it from the front.** -/
theorem null_error_hides :
    validateTerminal (Utf8.lit "response.failed") errorBeside = .ok () ∧
      semanticFailure (Utf8.lit "response.failed") errorBeside = true ∧
      (responsesSemanticError errorBeside (Utf8.lit "response.failed")).1 = 500 ∧
      (responsesFailureHttpException StreamRuntime.plain errorBeside
        (Utf8.lit "response.failed")).map (·.statusCode) = some 429 := by
  refine ⟨?_, ?_, ?_, ?_⟩
  · rfl
  · decide
  · decide
  · decide

end UniApi.CrossPlane
