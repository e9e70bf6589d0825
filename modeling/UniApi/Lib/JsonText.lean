/-
**JSON texts, read code point by code point.**

A decoder of JSON is a machine with a stack of open containers. It accepts the grammar of JSON and
nothing else; a decoder may also know the constants `NaN`, `Infinity` and `-Infinity`. The members of
an object are kept in the order of the text, so that both readings of a repeated key can be stated.

* `decode_space`: white space behind a text does not count;
* `decode_object_ends`: behind the text of an object only white space may follow;
* `decode_after_cr`: behind a carriage return no word with another first letter starts;
* `decode_constants`: a decoder that knows the constants reads every JSON text the same way.
-/

import Mathlib.Data.List.Basic
import UniApi.Lib.Utf8

namespace UniApi.Lib

/-- A JSON value. A number is kept as its text. -/
inductive Json where
  | null
  | bool (value : Bool)
  | number (text : List CodePoint)
  | string (text : List CodePoint)
  | array (items : List Json)
  | object (members : List (List CodePoint × Json))

namespace Json

/-! ### Words -/

/-- White space of JSON. -/
def isSpace (letter : CodePoint) : Bool := letter == 32 || letter == 9 || letter == 10 || letter == 13

def isDigit (letter : CodePoint) : Bool := 48 ≤ letter && letter ≤ 57

def isHexDigit (letter : CodePoint) : Bool :=
  isDigit letter || (65 ≤ letter && letter ≤ 70) || (97 ≤ letter && letter ≤ 102)

/-- The value of a hexadecimal digit. -/
def hexValue (letter : CodePoint) : Nat :=
  if letter ≤ 57 then letter - 48 else if letter ≤ 70 then letter - 55 else letter - 87

/-- The letters a number or a constant starts with: a sign, a digit, or one of `t f n N I`. -/
def startsWord (letter : CodePoint) : Bool :=
  letter == 45 || isDigit letter || letter == 116 || letter == 102 || letter == 110 || letter == 78 ||
    letter == 73

/-- The letters a number or a constant goes on with. -/
def inWord (letter : CodePoint) : Bool :=
  letter == 43 || letter == 45 || letter == 46 || isDigit letter || (65 ≤ letter && letter ≤ 90) ||
    (97 ≤ letter && letter ≤ 122)

/-- The exponent of a number, or nothing. -/
def isExponent : List CodePoint → Bool
  | [] => true
  | letter :: rest =>
    let digits := if rest.head? = some 43 ∨ rest.head? = some 45 then rest.tail else rest
    (letter == 101 || letter == 69) && !digits.isEmpty && digits.all isDigit

/-- The fraction and the exponent of a number, or nothing. -/
def isFraction : List CodePoint → Bool
  | 46 :: rest => !(rest.takeWhile isDigit).isEmpty && isExponent (rest.dropWhile isDigit)
  | rest => isExponent rest

/-- The numbers of JSON: no leading zero, and digits on both sides of a point. -/
def isNumber (text : List CodePoint) : Bool :=
  let unsigned := if text.head? = some 45 then text.tail else text
  let whole := unsigned.takeWhile isDigit
  !whole.isEmpty && (whole.head? != some 48 || whole.length == 1) &&
    isFraction (unsigned.dropWhile isDigit)

/-- What a word says. -/
def wordValue (constants : Bool) (text : List CodePoint) : Option Json :=
  if text = Utf8.points "null" then some null
  else if text = Utf8.points "true" then some (bool true)
  else if text = Utf8.points "false" then some (bool false)
  else if isNumber text then some (number text)
  else if constants ∧ text ∈ [Utf8.points "NaN", Utf8.points "Infinity", Utf8.points "-Infinity"] then
    some (number text)
  else none

/-! ### The machine -/

/-- A container whose end has not been read. An object also holds the key whose value comes next. -/
inductive Container where
  | array (items : List Json)
  | object (members : List (List CodePoint × Json)) (key : List CodePoint)

/-- Inside a string: between letters, behind a backslash, or inside the digits of `\u`. -/
inductive Escape where
  | none
  | backslash
  | digits (read : List CodePoint)

/-- What the machine waits for. -/
inductive Mode where
  /-- A value, or the end of the container. -/
  | value (orEnd : Bool)
  /-- A key, or the end of the container. -/
  | key (orEnd : Bool)
  | colon
  /-- A comma or the end of the container. -/
  | after
  | done (value : Json)
  /-- Inside a string; `high` after an escaped high surrogate. -/
  | string (isKey : Bool) (text : List CodePoint) (escape : Escape) (high : Bool)
  | word (text : List CodePoint)

structure Scan where
  stack : List Container
  mode : Mode

namespace Scan

/-- A value is complete. -/
def deliver (value : Json) : List Container → Scan
  | [] => ⟨[], .done value⟩
  | .array items :: rest => ⟨.array (items ++ [value]) :: rest, .after⟩
  | .object members key :: rest => ⟨.object (members ++ [(key, value)]) [] :: rest, .after⟩

/-- The innermost container ends at its bracket. -/
def close (letter : CodePoint) : List Container → Option Scan
  | .array items :: rest => if letter = 93 then some (deliver (.array items) rest) else none
  | .object members _ :: rest => if letter = 125 then some (deliver (.object members) rest) else none
  | [] => none

/-- A value starts. -/
def openValue (stack : List Container) (letter : CodePoint) : Option Scan :=
  if letter = 34 then some ⟨stack, .string false [] .none false⟩
  else if letter = 91 then some ⟨.array [] :: stack, .value true⟩
  else if letter = 123 then some ⟨.object [] [] :: stack, .key true⟩
  else if startsWord letter then some ⟨stack, .word [letter]⟩
  else none

/-- Behind a comma: an array waits for a value, an object for a key. -/
def comma : List Container → Option Scan
  | .array items :: rest => some ⟨.array items :: rest, .value false⟩
  | .object members key :: rest => some ⟨.object members key :: rest, .key false⟩
  | [] => none

/-- A letter outside strings and words that is no white space. -/
def token (scan : Scan) (letter : CodePoint) : Option Scan :=
  match scan.mode with
  | .value orEnd => (openValue scan.stack letter).or (if orEnd then close letter scan.stack else none)
  | .key orEnd =>
    if letter = 34 then some ⟨scan.stack, .string true [] .none false⟩
    else if orEnd then close letter scan.stack
    else none
  | .colon => if letter = 58 then some ⟨scan.stack, .value false⟩ else none
  | .after => if letter = 44 then comma scan.stack else close letter scan.stack
  | _ => none

/-- A letter outside strings and words. -/
def between (scan : Scan) (letter : CodePoint) : Option Scan :=
  if isSpace letter then some scan else scan.token letter

/-- A string is complete: it is a key or a value. -/
def endString (isKey : Bool) (text : List CodePoint) (stack : List Container) : Option Scan :=
  if isKey then
    match stack with
    | .object members _ :: rest => some ⟨.object members text :: rest, .colon⟩
    | _ => none
  else some (deliver (.string text) stack)

/-- The letters that may follow a backslash, and what they stand for. -/
def escaped : CodePoint → Option CodePoint
  | 34 => some 34
  | 92 => some 92
  | 47 => some 47
  | 98 => some 8
  | 102 => some 12
  | 110 => some 10
  | 114 => some 13
  | 116 => some 9
  | _ => none

/-- The four digits of `\u` are complete. A low surrogate right behind a high one joins it. -/
def endDigits (isKey : Bool) (text : List CodePoint) (high : Bool) (code : Nat) : Mode :=
  if high ∧ 0xDC00 ≤ code ∧ code ≤ 0xDFFF then
    let joined := 0x10000 + ((text.getLast?.getD 0xD800) - 0xD800) * 0x400 + (code - 0xDC00)
    .string isKey (text.dropLast ++ [joined]) .none false
  else .string isKey (text ++ [code]) .none (0xD800 ≤ code && code ≤ 0xDBFF)

/-- A letter inside a string. -/
def inString (stack : List Container) (isKey : Bool) (text : List CodePoint) (escape : Escape)
    (high : Bool) (letter : CodePoint) : Option Scan :=
  match escape with
  | .none =>
    if letter = 34 then endString isKey text stack
    else if letter = 92 then some ⟨stack, .string isKey text .backslash high⟩
    else if letter < 32 then none
    else some ⟨stack, .string isKey (text ++ [letter]) .none false⟩
  | .backslash =>
    if letter = 117 then some ⟨stack, .string isKey text (.digits []) high⟩
    else (escaped letter).map fun code => ⟨stack, .string isKey (text ++ [code]) .none false⟩
  | .digits read =>
    if isHexDigit letter then
      if read.length = 3 then
        let code := (read ++ [letter]).foldl (fun value digit => value * 16 + hexValue digit) 0
        some ⟨stack, endDigits isKey text high code⟩
      else some ⟨stack, .string isKey text (.digits (read ++ [letter])) high⟩
    else none

/-- One letter. -/
def step (constants : Bool) (scan : Scan) (letter : CodePoint) : Option Scan :=
  match scan.mode with
  | .string isKey text escape high => inString scan.stack isKey text escape high letter
  | .word text =>
    if inWord letter then some ⟨scan.stack, .word (text ++ [letter])⟩
    else (wordValue constants text).bind fun value => (deliver value scan.stack).between letter
  | _ => scan.between letter

/-- The letters of a text. -/
def run (constants : Bool) (scan : Scan) (text : List CodePoint) : Option Scan :=
  text.foldlM (step constants) scan

/-- What has been read, if the text ends here. -/
def result (constants : Bool) (scan : Scan) : Option Json :=
  match scan.stack, scan.mode with
  | _, .done value => some value
  | [], .word text => wordValue constants text
  | _, _ => none

/-- A value is expected. -/
def start : Scan := ⟨[], .value false⟩

end Scan

/-- **The value of a JSON text.** -/
def decode (constants : Bool) (text : List CodePoint) : Option Json :=
  (Scan.start.run constants text).bind (Scan.result constants)

/-! ### What the machine does -/

namespace Scan

variable {constants : Bool} {scan after : Scan} {letter : CodePoint}

@[simp] theorem run_nil : scan.run constants [] = some scan := rfl

@[simp] theorem run_cons (rest : List CodePoint) :
    scan.run constants (letter :: rest) =
      (scan.step constants letter).bind fun next => next.run constants rest := rfl

theorem run_append (first second : List CodePoint) :
    scan.run constants (first ++ second) =
      (scan.run constants first).bind fun next => next.run constants second :=
  List.foldlM_append

theorem result_string (stack : List Container) (isKey : Bool) (text : List CodePoint)
    (escape : Escape) (high : Bool) :
    result constants ⟨stack, .string isKey text escape high⟩ = none := by
  cases stack <;> rfl

theorem result_deliver (value : Json) (stack : List Container) :
    result constants (deliver value stack) = if stack = [] then some value else none := by
  cases stack with
  | nil => rfl
  | cons container rest => cases container <;> rfl

/-- Inside a string white space is refused or one more letter. -/
theorem inString_space (space : isSpace letter = true) (stack : List Container) (isKey : Bool)
    (text : List CodePoint) (escape : Escape) (high : Bool) :
    (inString stack isKey text escape high letter).bind (result constants) = none := by
  have cases : letter = 32 ∨ letter = 9 ∨ letter = 10 ∨ letter = 13 := by
    simpa [isSpace, or_assoc] using space
  cases escape with
  | none =>
    rcases cases with rfl | rfl | rfl | rfl
    · have more : inString stack isKey text .none high 32 =
          some ⟨stack, .string isKey (text ++ [32]) .none false⟩ := rfl
      rw [more, Option.bind_some, result_string]
    all_goals rfl
  | backslash => rcases cases with rfl | rfl | rfl | rfl <;> rfl
  | digits read => rcases cases with rfl | rfl | rfl | rfl <;> rfl

theorem not_inWord_of_space (space : isSpace letter = true) : inWord letter = false := by
  have cases : letter = 32 ∨ letter = 9 ∨ letter = 10 ∨ letter = 13 := by
    simpa [isSpace, or_assoc] using space
  rcases cases with rfl | rfl | rfl | rfl <;> rfl

/-- **White space does not change the result.** -/
theorem result_space (space : isSpace letter = true) :
    (scan.step constants letter).bind (result constants) = scan.result constants := by
  obtain ⟨stack, mode⟩ := scan
  cases mode with
  | string isKey text escape high =>
    rw [result_string]
    exact inString_space space stack isKey text escape high
  | word text =>
    have ends := not_inWord_of_space space
    cases meaning : wordValue constants text with
    | none => cases stack <;> simp [step, ends, meaning, result]
    | some value =>
      have read : step constants ⟨stack, .word text⟩ letter = some (deliver value stack) := by
        simp [step, ends, meaning, between, space]
      rw [read, Option.bind_some, result_deliver]
      cases stack <;> simp [result, meaning]
  | value orEnd | key orEnd | colon | after | done value => simp [step, between, space]

theorem result_spaces (spaces : List CodePoint) (all : spaces.all isSpace = true) :
    (scan.run constants spaces).bind (result constants) = scan.result constants := by
  induction spaces generalizing scan with
  | nil => rfl
  | cons letter rest ih =>
    rw [List.all_cons, Bool.and_eq_true] at all
    have same : ∀ next : Scan, (next.run constants rest).bind (result constants) =
        next.result constants := fun next => ih all.2
    rw [run_cons, Option.bind_assoc, ← result_space all.1]
    simp only [same]

/-- Behind a complete value only white space is read. -/
theorem spaces_of_done {value : Json} {stack : List Container} {rest : List CodePoint}
    (reads : run constants ⟨stack, .done value⟩ rest ≠ none) : rest.all isSpace = true := by
  induction rest with
  | nil => rfl
  | cons letter rest ih =>
    by_cases space : isSpace letter = true
    · have same : step constants ⟨stack, .done value⟩ letter = some ⟨stack, .done value⟩ := by
        simp [step, between, space]
      rw [run_cons, same] at reads
      rw [List.all_cons, space, ih reads]
      rfl
    · refine absurd ?_ reads
      simp [step, between, token, space]

theorem wordValue_ne_object (text : List CodePoint) (members : List (List CodePoint × Json)) :
    wordValue constants text ≠ some (.object members) := by
  unfold wordValue
  split_ifs <;> simp

theorem done_of_object {members : List (List CodePoint × Json)}
    (read : scan.result constants = some (.object members)) :
    scan.mode = .done (.object members) := by
  obtain ⟨stack, mode⟩ := scan
  cases mode with
  | done value =>
    have same : result constants ⟨stack, .done value⟩ = some value := by cases stack <;> rfl
    rw [same] at read
    rw [Option.some.inj read]
  | word text =>
    cases stack with
    | nil => exact absurd read (wordValue_ne_object text members)
    | cons container rest => cases read
  | value orEnd | key orEnd | colon | after | string isKey text escape high =>
    cases stack <;> cases read

/-- A carriage return ends no string and leaves no word. -/
theorem step_cr (reads : scan.step constants 13 = some after) (next : CodePoint) :
    after.step constants next = after.between next := by
  obtain ⟨stack, mode⟩ := scan
  cases mode with
  | string isKey text escape high => cases escape <;> cases reads
  | word text =>
    have read : (wordValue constants text).bind (fun value => some (deliver value stack)) = some after :=
      reads
    cases meaning : wordValue constants text with
    | none => simp [meaning] at read
    | some value =>
      rw [meaning] at read
      cases read
      cases stack with
      | nil => rfl
      | cons container rest => cases container <;> rfl
  | value orEnd | key orEnd | colon | after | done value =>
    cases reads
    rfl

/-- A letter that is no part of the punctuation and starts no value is refused outside strings and
words. -/
theorem between_refused (plain : isSpace letter = false) (unstarted : startsWord letter = false)
    (noSign : letter ∉ [34, 44, 58, 91, 93, 123, 125]) : scan.between letter = none := by
  obtain ⟨stack, mode⟩ := scan
  simp only [List.mem_cons, List.not_mem_nil, or_false, not_or] at noSign
  obtain ⟨quote, comma, colon, openArray, closeArray, openObject, closeObject⟩ := noSign
  have unclosed : close letter stack = none := by
    rcases stack with - | ⟨items | ⟨members, key⟩, rest⟩
    · rfl
    · exact if_neg closeArray
    · exact if_neg closeObject
  cases mode <;> simp [between, plain, token, openValue, quote, comma, colon, openArray, openObject,
    unstarted, unclosed]

end Scan

section Decode

variable {constants : Bool} {text : List CodePoint}

/-- **White space behind a text does not count.** -/
theorem decode_space {spaces : List CodePoint} (all : spaces.all isSpace = true) :
    decode constants (text ++ spaces) = decode constants text := by
  unfold decode
  rw [Scan.run_append, Option.bind_assoc]
  congr 1
  funext next
  exact Scan.result_spaces spaces all

/-- **Behind the text of an object** only white space may follow. -/
theorem decode_object_ends {members : List (List CodePoint × Json)} {rest : List CodePoint}
    (read : decode constants text = some (.object members))
    (longer : decode constants (text ++ rest) ≠ none) : rest.all isSpace = true := by
  unfold decode at read longer
  rw [Scan.run_append] at longer
  cases reached : Scan.start.run constants text with
  | none => simp [reached] at read
  | some scan =>
    obtain ⟨stack, mode⟩ := scan
    rw [reached, Option.bind_some] at read longer
    have done := Scan.done_of_object read
    dsimp only at done
    subst done
    have reads : Scan.run constants ⟨stack, .done (.object members)⟩ rest ≠ none := by
      intro stuck
      rw [stuck] at longer
      exact longer rfl
    exact Scan.spaces_of_done reads

/-- **Behind a carriage return** a text goes on with white space, punctuation or a word. -/
theorem decode_after_cr {before rest : List CodePoint} {letter : CodePoint}
    (plain : isSpace letter = false) (unstarted : startsWord letter = false)
    (noSign : letter ∉ [34, 44, 58, 91, 93, 123, 125]) :
    decode constants (before ++ 13 :: letter :: rest) = none := by
  unfold decode
  rw [Scan.run_append]
  cases reached : Scan.start.run constants before with
  | none => rfl
  | some scan =>
    rw [Option.bind_some, Scan.run_cons]
    cases next : scan.step constants 13 with
    | none => rfl
    | some scan' =>
      have refused : scan'.step constants letter = none := by
        rw [Scan.step_cr next, Scan.between_refused plain unstarted noSign]
      simp [refused]

theorem wordValue_constants {value : Json} (meaning : wordValue false text = some value) :
    wordValue constants text = some value := by
  unfold wordValue at meaning ⊢
  split_ifs at meaning ⊢ <;> simp_all

theorem Scan.step_constants {scan after : Scan} {letter : CodePoint}
    (reads : scan.step false letter = some after) : scan.step constants letter = some after := by
  obtain ⟨stack, mode⟩ := scan
  cases mode with
  | word text =>
    simp only [step] at reads ⊢
    split_ifs at reads ⊢
    · exact reads
    · cases meaning : wordValue false text with
      | none => simp [meaning] at reads
      | some value =>
        rw [wordValue_constants meaning]
        rwa [meaning] at reads
  | value orEnd | key orEnd | colon | after | done value | string isKey text escape high => exact reads

/-- **A decoder that knows the constants** reads JSON the same way. -/
theorem decode_constants {value : Json} (read : decode false text = some value) :
    decode constants text = some value := by
  have runs : ∀ (text : List CodePoint) (scan after : Scan), scan.run false text = some after →
      scan.run constants text = some after := by
    intro text
    induction text with
    | nil => exact fun _ _ reads => reads
    | cons letter rest ih =>
      intro scan after reads
      rw [Scan.run_cons] at reads ⊢
      obtain ⟨next, here, later⟩ := Option.bind_eq_some_iff.mp reads
      rw [Scan.step_constants here]
      exact ih next after later
  unfold decode at read ⊢
  obtain ⟨scan, reached, meaning⟩ := Option.bind_eq_some_iff.mp read
  rw [runs text _ _ reached, Option.bind_some]
  obtain ⟨stack, mode⟩ := scan
  cases mode with
  | word word =>
    cases stack with
    | nil => exact wordValue_constants meaning
    | cons container rest => cases meaning
  | done value => cases stack <;> exact meaning
  | value orEnd | key orEnd | colon | after | string isKey text escape high => cases stack <;> cases meaning

end Decode

end Json

end UniApi.Lib
