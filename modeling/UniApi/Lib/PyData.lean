/-
**Python values that come from JSON.**

Values are taken apart by keys and indices, where a step that fails gives a default, and are true or false
as Python has it. What reads and writes JSON texts of them is a `JsonCodec`.

* `safeGet_of_truthy`, `safeGet_of_none`, `text_safeGet`: what a path gives;
* `JsonCodec.two_objects`: the texts of two objects are no text of a value;
* `JsonCodec.standard`: the decoder of the library is one.
-/

import Mathlib.Algebra.Order.Floor.Ring
import Mathlib.Data.Rat.Floor
import UniApi.Lib.JsonText
import UniApi.Lib.PyText

namespace UniApi.Lib

theorem bind_eq_ok {ε α β : Type} {call : Except ε α} {next : α → Except ε β} {value : β} :
    (call >>= next) = .ok value ↔ ∃ middle, call = .ok middle ∧ next middle = .ok value := by
  cases call with
  | error error => exact iff_of_false (fun same => by cases same) fun ⟨_, same, _⟩ => by cases same
  | ok middle => exact ⟨fun same => ⟨middle, rfl, same⟩, fun ⟨_, same, later⟩ => by cases same; exact later⟩

/-- A value of `json.loads`. A float that is not finite has no value. -/
inductive PyData where
  | none
  | bool (value : Bool)
  | int (value : ℤ)
  | float (value : Option ℚ)
  | str (text : PyText)
  | list (items : List PyData)
  | dict (members : List (String × PyData))

/-- What leads from a value to a part of it. -/
inductive PyKey where
  | name (name : String)
  | index (index : ℤ)

namespace PyData

instance : Coe String PyKey := ⟨.name⟩

instance (index : ℕ) : OfNat PyKey index := ⟨.index index⟩

/-- `bool(value)`. -/
def truthy : PyData → Bool
  | none => false
  | bool value => value
  | int value => value != 0
  | float value => value != some 0
  | str text => !text.isEmpty
  | list items => !items.isEmpty
  | dict members => !members.isEmpty

/-- `first or second`. -/
def orElse (first second : PyData) : PyData := if first.truthy then first else second

/-- `isinstance(value, str)`, with the text. -/
def asStr : PyData → Option PyText
  | str text => some text
  | _ => Option.none

/-- `isinstance(value, list)`, with the items. -/
def asList : PyData → Option (List PyData)
  | list items => some items
  | _ => Option.none

/-- `isinstance(value, dict)`, with the members. -/
def asDict : PyData → Option (List (String × PyData))
  | dict members => some members
  | _ => Option.none

/-- A literal. -/
def lit (text : String) : PyData := str (Utf8.points text)

/-- `value == "..."`. -/
def isText (value : PyData) (text : String) : Bool := value.asStr == some (Utf8.points text)

/-- The text of a string, and nothing of another value. -/
def text (value : PyData) : PyText := value.asStr.getD []

/-- `value[key]`, where it does not raise. -/
def part : PyData → PyKey → Option PyData
  | dict members, .name name => members.lookup name
  | list items, .index index =>
    if 0 ≤ index then items[index.toNat]?
    else if -items.length ≤ index then items[(items.length + index).toNat]?
    else Option.none
  | _, _ => Option.none

/-- Where the keys lead. -/
def follow (data : PyData) : List PyKey → Option PyData
  | [] => some data
  | key :: keys => (data.part key).bind (follow · keys)

/-- `safe_get(data, *keys, default)`. Whether a false value that was found is returned, or the default for
it, is a parameter. -/
def safeGet (keepsFalsy : Bool) (data : PyData) (keys : List PyKey) (default : PyData) : PyData :=
  match data.follow keys with
  | Option.none => default
  | some leaf => if leaf.truthy || keepsFalsy then leaf else default

theorem safeGet_of_truthy {keepsFalsy : Bool} {data leaf default : PyData} {keys : List PyKey}
    (leads : data.follow keys = some leaf) (isTrue : leaf.truthy = true) :
    data.safeGet keepsFalsy keys default = leaf := by
  rw [safeGet, leads]
  simp [isTrue]

theorem safeGet_of_none {keepsFalsy : Bool} {data default : PyData} {keys : List PyKey}
    (lost : data.follow keys = Option.none) : data.safeGet keepsFalsy keys default = default := by
  rw [safeGet, lost]

/-- The text at a path does not depend on what is done with an empty one. -/
theorem text_safeGet {keepsFalsy : Bool} {data : PyData} {keys : List PyKey} {found : PyText}
    (leads : data.follow keys = some (str found)) (default : PyData) (nothing : default.text = []) :
    (data.safeGet keepsFalsy keys default).text = found := by
  rw [safeGet, leads]
  dsimp only
  split
  · rfl
  · rename_i false_
    cases found with
    | nil => exact nothing
    | cons => simp [truthy] at false_

theorem truthy_int (value : ℤ) : (int value).truthy = true ↔ value ≠ 0 := by
  show (value != 0) = true ↔ _
  rw [bne_iff_ne]

theorem truthy_str (words : PyText) : (str words).truthy = true ↔ words ≠ [] := by
  cases words with
  | nil => exact iff_of_false (by decide) (by simp)
  | cons letter words => exact iff_of_true rfl (by simp)

section Counts

-- the decimal digits of `str.isdecimal`, with their values
variable (digit : CodePoint → Option ℕ)

/-- `_MAX_TOKEN_COUNT`. -/
def maxTokenCount : ℤ := 2 ^ 63 - 1

/-- The integer of a text of decimal digits. -/
def decimalValue (text : PyText) : Option ℕ :=
  if text.isEmpty then Option.none
  else (text.mapM digit).map fun digits => digits.foldl (fun value next => 10 * value + next) 0

/-- `_coerce_token_count`. -/
def coerceTokenCount (value : PyData) : ℤ :=
  let parsed : ℤ :=
    match value with
    | bool value => if value then 1 else 0
    | int value => value
    | float value => (value.map fun value => ⌊value⌋).getD 0
    | str text => if 32 < text.length then 0 else ((decimalValue digit (PyText.strip text)).map (↑)).getD 0
    | _ => 0
  min maxTokenCount (max 0 parsed)

end Counts

end PyData

/-! ### JSON texts -/

/-- What writes and reads JSON texts: the text that is written for a value that some text has is read
as that value, and behind the text of an object only white space may follow. -/
structure JsonCodec where
  dumps : PyData → PyText
  loads : PyText → Option PyData
  loads_space : ∀ text, text.all Json.isSpace = true → loads text = none
  loads_null : loads (Utf8.points "null") = some .none
  loads_braces : loads (Utf8.points "\x7b\x7d") = some (.dict [])
  loads_dumps : ∀ text value, loads text = some value → loads (dumps value) = some value
  object_ends : ∀ text members rest, loads text = some (.dict members) → loads (text ++ rest) ≠ none →
    rest.all Json.isSpace = true

namespace JsonCodec

theorem loads_nil (codec : JsonCodec) : codec.loads [] = none := codec.loads_space [] rfl

theorem not_space (codec : JsonCodec) {text : PyText} {value : PyData}
    (read : codec.loads text = some value) : text.all Json.isSpace = false := by
  rw [Bool.eq_false_iff]
  intro space
  rw [codec.loads_space text space] at read
  cases read

/-- **The text of an object with another text behind it is no text of a value.** -/
theorem two_objects (codec : JsonCodec) {text rest : PyText} {members : List (String × PyData)}
    (first : codec.loads text = some (.dict members)) (second : rest.all Json.isSpace = false) :
    codec.loads (text ++ rest) = none := by
  by_contra read
  rw [codec.object_ends text members rest first read] at second
  cases second

/-! The decoder of the library. -/

/-- The digits of a number, as the integer that they write. -/
def digitsValue (digits : List CodePoint) : ℕ :=
  digits.foldl (fun value next => 10 * value + (next - 48)) 0

/-- A number with a fraction or an exponent. -/
def decimalOf (digits : List CodePoint) : ℚ :=
  let behind := digits.dropWhile Json.isDigit
  let fraction := if behind.head? = some 46 then behind.tail.takeWhile Json.isDigit else []
  let power := behind.dropWhile fun letter => letter != 101 && letter != 69
  let exponent : ℤ := digitsValue (power.filter Json.isDigit)
  let exponent := if power.contains 45 then -exponent else exponent
  digitsValue (digits.takeWhile Json.isDigit ++ fraction) * (10 : ℚ) ^ (exponent - fraction.length)

/-- A number is an integer if it has digits only. -/
def ofNumber (text : List CodePoint) : PyData :=
  let digits := if text.head? = some 45 then text.tail else text
  let sign : ℤ := if text.head? = some 45 then -1 else 1
  if !digits.any Json.isDigit then .float none
  else if digits.all Json.isDigit then .int (sign * digitsValue digits)
  else .float (some (sign * decimalOf digits))

mutual

def ofJson : Json → PyData
  | .null => .none
  | .bool value => .bool value
  | .number text => ofNumber text
  | .string text => .str text
  | .array items => .list (ofItems items)
  | .object members => .dict (ofMembers members)

def ofItems : List Json → List PyData
  | [] => []
  | item :: items => ofJson item :: ofItems items

/-- Of two members with one name the later one counts. -/
def ofMembers : List (List CodePoint × Json) → List (String × PyData)
  | [] => []
  | (name, value) :: members =>
    let others := ofMembers members
    let name := String.ofList (name.map Char.ofNat)
    if (others.lookup name).isSome then others else (name, ofJson value) :: others

end

theorem object_of_ofJson {json : Json} {members : List (String × PyData)}
    (isDict : ofJson json = .dict members) : ∃ members, json = .object members := by
  cases json with
  | object members => exact ⟨members, rfl⟩
  | number text =>
    rw [ofJson, ofNumber] at isDict
    split_ifs at isDict
  | _ => rw [ofJson] at isDict; cases isDict

open Classical in
/-- A text of a value, if it has one. -/
noncomputable def textOf (loads : PyText → Option PyData) (value : PyData) : PyText :=
  if written : ∃ text, loads text = some value then choose written else []

/-- **The decoder of the library**, with any of the texts of a value as the text that is written. -/
noncomputable def standard : JsonCodec where
  loads text := (Json.decode true text).map ofJson
  dumps := textOf fun text => (Json.decode true text).map ofJson
  loads_space text space := by
    rw [← List.nil_append text, Json.decode_space space]
    rfl
  loads_null := rfl
  loads_braces := rfl
  loads_dumps text value read := by
    rw [textOf, dif_pos ⟨text, read⟩]
    exact Classical.choose_spec (⟨text, read⟩ : ∃ text, (Json.decode true text).map ofJson = some value)
  object_ends text members rest read longer := by
    obtain ⟨json, decoded, isDict⟩ := Option.map_eq_some_iff.mp read
    obtain ⟨members, rfl⟩ := object_of_ofJson isDict
    exact Json.decode_object_ends decoded fun none_ => longer (by rw [none_]; rfl)

end JsonCodec

end UniApi.Lib
