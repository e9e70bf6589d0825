/-
**JSON values and strings as the front uses them.**

A `Value` is what `serde_json` builds, with the members of an object in the order of their keys. The
parser and the printer of `serde_json`, and the digest of `sha2`, are the parameters of the model:
`Serde` gives them. A Rust string is the list of its UTF-8 bytes.
-/

import Mathlib.Algebra.Order.Ring.Int
import UniApi.Front.SseDecoder

namespace UniApi.Front

open UniApi.Lib

/-! ### Values -/

/-- A number: `as_i64` and `as_u64` look at the first two forms only. -/
inductive JsonNumber where
  | posInt (value : Nat)
  | negInt (value : Int)
  | float (text : Bytes)
  deriving DecidableEq

/-- `serde_json::Value`. -/
inductive Value where
  | null
  | bool (value : Bool)
  | number (value : JsonNumber)
  | string (text : Bytes)
  | array (items : List Value)
  | object (members : List (Bytes × Value))

/-- `serde_json::Map`. -/
abbrev JsonMap := List (Bytes × Value)

namespace JsonMap

/-- `Map::get`. -/
def get (map : JsonMap) (key : Bytes) : Option Value := map.lookup key

/-- `Map::insert`, which keeps the keys in order. -/
def insert (key : Bytes) (value : Value) : JsonMap → JsonMap
  | [] => [(key, value)]
  | (name, old) :: rest =>
    if key = name then (key, value) :: rest
    else if key < name then (key, value) :: (name, old) :: rest
    else (name, old) :: insert key value rest

end JsonMap

namespace Value

/-- `Value::as_object`. -/
def asObject : Value → Option JsonMap
  | object members => some members
  | _ => none

/-- `Value::as_array`. -/
def asArray : Value → Option (List Value)
  | array items => some items
  | _ => none

/-- `Value::as_str`. -/
def asStr : Value → Option Bytes
  | string text => some text
  | _ => none

/-- `Value::as_i64`. -/
def asI64 : Value → Option Int
  | number (.posInt value) => if value < 2 ^ 63 then some value else none
  | number (.negInt value) => some value
  | _ => none

/-- `Value::get` with a key. -/
def get (value : Value) (key : Bytes) : Option Value := value.asObject.bind (·.get key)

/-- `value.get(key).and_then(Value::as_str)`. -/
def getStr (value : Value) (key : Bytes) : Option Bytes := (value.get key).bind asStr

/-- `Value::is_object`. -/
def isObject (value : Value) : Bool := value.asObject.isSome

/-- `Value::is_null`. -/
def isNull : Value → Bool
  | null => true
  | _ => false

end Value

/-- The code outside the repository: `serde_json::from_str`, `serde_json::to_string`, and the digest of
`sha2` in hexadecimal digits. -/
structure Serde where
  fromStr : Bytes → Option Value
  toString : Value → Option Bytes
  sha256Hex : Bytes → Bytes

/-! ### Strings -/

/-- `char::is_whitespace`. -/
def isWhitespace (point : CodePoint) : Bool :=
  (9 ≤ point && point ≤ 13) || point == 0x20 || point == 0x85 || point == 0xA0 || point == 0x1680 ||
    (0x2000 ≤ point && point ≤ 0x200A) || point == 0x2028 || point == 0x2029 || point == 0x202F ||
    point == 0x205F || point == 0x3000

/-- `str::trim`, as code points. -/
def trim (text : Bytes) : List CodePoint :=
  ((((Utf8.decodeAll text).getD []).dropWhile isWhitespace).reverse.dropWhile isWhitespace).reverse

/-- `u8::is_ascii_alphanumeric`. -/
def isAsciiAlphanumeric (byte : UInt8) : Bool :=
  (48 ≤ byte && byte ≤ 57) || (65 ≤ byte && byte ≤ 90) || (97 ≤ byte && byte ≤ 122)

/-- `u8::to_ascii_lowercase`. -/
def toAsciiLowercase (byte : UInt8) : UInt8 := if 65 ≤ byte && byte ≤ 90 then byte + 32 else byte

/-- `eq_ignore_ascii_case`. -/
def eqIgnoreAsciiCase (first second : Bytes) : Bool :=
  first.map toAsciiLowercase == second.map toAsciiLowercase

/-- `strip_prefix`. -/
def stripPrefix (start text : Bytes) : Option Bytes :=
  if start.isPrefixOf text then some (text.drop start.length) else none

/-- `memmem::find(..).is_some()`. -/
def containsBytes (text needle : Bytes) : Bool := text.tails.any needle.isPrefixOf

end UniApi.Front
