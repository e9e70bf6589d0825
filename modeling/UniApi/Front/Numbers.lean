/-
**Texts of the configuration and of errors in the front: trimmed, split at a sign, read as numbers.**
-/

import UniApi.Front.Json
import UniApi.Lib.Double

namespace UniApi.Front

open UniApi.Lib

/-- `str::trim` of code points. -/
def trimPoints (text : List CodePoint) : List CodePoint :=
  ((text.dropWhile isWhitespace).reverse.dropWhile isWhitespace).reverse

/-- `text.split_once('/')`. -/
def splitOnce (text : List CodePoint) : Option (List CodePoint × List CodePoint) :=
  if text.contains 47 then some (text.takeWhile (· != 47), (text.dropWhile (· != 47)).drop 1) else none

/-- `char::is_ascii_digit`. -/
def isAsciiDigit (point : CodePoint) : Bool := 48 ≤ point && point ≤ 57

/-- `parse::<f64>()` of digits and points: at most one point, and a digit. -/
def parseF64 (text : List CodePoint) : Option Double :=
  let whole := text.takeWhile isAsciiDigit
  let fraction := (text.dropWhile isAsciiDigit).drop 1
  if fraction.all isAsciiDigit && !(whole ++ fraction).isEmpty then
    some (Double.ofDecimal (whole.map (· - 48)) (fraction.map (· - 48)))
  else none

end UniApi.Front
