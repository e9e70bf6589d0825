/-
**Python strings: substrings and letter case.**

A Python string is a list of code points. The tables behind `str.lower` and `str.casefold` are a
parameter of which two facts are used: what they do to ASCII, and that a space parts a text.

* `isSubstring_iff`, `isSubstring_map`: substrings, and the substrings of an image;
* `IsFold.spaced`: lowering words that are joined by spaces lowers the last word where it stands.
-/

import UniApi.Lib.Utf8
import Mathlib.Data.List.Infix
import Mathlib.Data.List.TakeWhile

namespace UniApi.Lib

/-! ### Substrings -/

section Substrings

variable {α β : Type} [BEq α] [LawfulBEq α] [BEq β] [LawfulBEq β]

/-- `needle in text`. -/
def isSubstring (needle text : List α) : Bool := text.tails.any needle.isPrefixOf

theorem isSubstring_iff {needle text : List α} : isSubstring needle text = true ↔ needle <:+: text := by
  simp only [isSubstring, List.any_eq_true, List.mem_tails, List.isPrefixOf_iff_prefix]
  rw [List.infix_iff_prefix_suffix]
  exact exists_congr fun rest => and_comm

/-- A substring of a part is a substring of the whole. -/
theorem isSubstring_of_infix {needle part text : List α} (inside : part <:+: text)
    (found : isSubstring needle part = true) : isSubstring needle text = true :=
  isSubstring_iff.mpr ((isSubstring_iff.mp found).trans inside)

theorem isSubstring_map_of {needle text : List α} (image : α → β)
    (found : isSubstring needle text = true) :
    isSubstring (needle.map image) (text.map image) = true :=
  isSubstring_iff.mpr ((isSubstring_iff.mp found).map image)

/-- Substrings are kept by an injective map, and none is added. -/
theorem isSubstring_map {image : α → β} (injective : Function.Injective image) (needle text : List α) :
    isSubstring (needle.map image) (text.map image) = isSubstring needle text := by
  rw [Bool.eq_iff_iff, isSubstring_iff, isSubstring_iff]
  constructor
  · intro found
    obtain ⟨inner, inside, same⟩ := List.infix_map_iff.mp found
    rwa [injective.list_map same]
  · exact fun found => found.map image

/-- A text without a letter of the needle does not contain the needle. -/
theorem not_isSubstring_of_not_mem {needle text : List α} {letter : α} (inNeedle : letter ∈ needle)
    (notInText : letter ∉ text) : isSubstring needle text = false := by
  rw [Bool.eq_false_iff, ne_eq, isSubstring_iff]
  exact fun found => notInText (found.subset inNeedle)

end Substrings

/-! ### Words joined by spaces -/

/-- A Python string. -/
abbrev PyText := List CodePoint

namespace PyText

/-- `" ".join(part for part in parts if part)`. -/
def joinSpaced (parts : List PyText) : PyText := [32].intercalate (parts.filter (!·.isEmpty))

/-- The last word is the end of the joined text, behind a space if other words are in front. -/
theorem joinSpaced_concat (parts : List PyText) {last : PyText} (nonempty : last ≠ []) :
    joinSpaced (parts ++ [last]) = last ∨
      ∃ front, joinSpaced (parts ++ [last]) = front ++ 32 :: last := by
  have keeps : (parts ++ [last]).filter (!·.isEmpty) = parts.filter (!·.isEmpty) ++ [last] := by
    simp [List.filter_append, nonempty]
  rw [joinSpaced, keeps]
  generalize parts.filter (!·.isEmpty) = words
  induction words with
  | nil => exact .inl (by simp)
  | cons word words ih =>
    obtain ⟨next, rest, isCons⟩ : ∃ next rest, words ++ [last] = next :: rest :=
      List.exists_cons_of_ne_nil (by simp)
    right
    rw [List.cons_append, isCons, List.intercalate_cons_cons, ← isCons]
    rcases ih with alone | ⟨front, behind⟩
    · exact ⟨word, by rw [alone]; simp⟩
    · exact ⟨word ++ 32 :: front, by rw [behind]; simp⟩

/-! ### Letter case -/

/-- The lower case of an ASCII letter. -/
def lowerAscii (point : CodePoint) : CodePoint := if 65 ≤ point ∧ point ≤ 90 then point + 32 else point

/-- All code points are ASCII. -/
def Ascii (text : PyText) : Prop := ∀ point ∈ text, point < 128

/-- A change of letter case: ASCII letters are lowered, and no rule looks across a space. -/
structure IsFold (fold : PyText → PyText) : Prop where
  ascii : ∀ text, Ascii text → fold text = text.map lowerAscii
  space : ∀ first second, fold (first ++ 32 :: second) = fold first ++ 32 :: fold second

/-- An ASCII text behind other words is folded where it stands. -/
theorem IsFold.spaced {fold : PyText → PyText} (folds : IsFold fold) (parts : List PyText)
    {last : PyText} (ascii : Ascii last) :
    last.map lowerAscii <:+: fold (joinSpaced (parts ++ [last])) := by
  by_cases empty : last = []
  · rw [empty]
    exact List.nil_infix
  · rcases joinSpaced_concat parts empty with alone | ⟨front, behind⟩
    · rw [alone, folds.ascii last ascii]
    · rw [behind, folds.space, folds.ascii last ascii]
      exact ((List.suffix_cons _ _).trans (List.suffix_append _ _)).isInfix

theorem isFold_map_lowerAscii : IsFold fun text => text.map lowerAscii where
  ascii _ _ := rfl
  space _ _ := by simp [lowerAscii]

/-- The tables of `str.lower` and `str.casefold`. -/
structure CaseTables where
  lower : PyText → PyText
  casefold : PyText → PyText
  lower_isFold : IsFold lower
  casefold_isFold : IsFold casefold

/-- Tables that know no letters outside ASCII. -/
def CaseTables.ascii : CaseTables where
  lower text := text.map lowerAscii
  casefold text := text.map lowerAscii
  lower_isFold := isFold_map_lowerAscii
  casefold_isFold := isFold_map_lowerAscii

/-! ### White space -/

/-- `str.isspace` of one letter. -/
def isSpace (point : CodePoint) : Bool :=
  (9 ≤ point && point ≤ 13) || (0x1C ≤ point && point ≤ 0x20) || point == 0x85 || point == 0xA0 ||
    point == 0x1680 || (0x2000 ≤ point && point ≤ 0x200A) || point == 0x2028 || point == 0x2029 ||
    point == 0x202F || point == 0x205F || point == 0x3000

/-- `str.strip`. -/
def strip (text : PyText) : PyText := ((text.dropWhile isSpace).reverse.dropWhile isSpace).reverse

/-- A text that ends in a letter is stripped in front only. -/
theorem strip_of_dropWhile {text kept : PyText} {last : CodePoint}
    (dropped : text.dropWhile isSpace = kept ++ [last]) (letter : isSpace last = false) :
    strip text = kept ++ [last] := by
  have first : (kept ++ [last]).reverse.dropWhile isSpace = (kept ++ [last]).reverse := by
    rw [List.reverse_append, List.reverse_singleton, List.singleton_append,
      List.dropWhile_cons_of_neg (by simp [letter])]
  rw [strip, dropped, first, List.reverse_reverse]

theorem strip_eq_self {text : PyText} (noSpace : ∀ point ∈ text, isSpace point = false) :
    strip text = text := by
  rcases List.eq_nil_or_concat text with rfl | ⟨kept, last, rfl⟩
  · rfl
  · rw [List.concat_eq_append] at noSpace ⊢
    refine strip_of_dropWhile ?_ (noSpace last (by simp))
    cases kept with
    | nil => exact List.dropWhile_cons_of_neg (by simp [noSpace last (by simp)])
    | cons first rest => exact List.dropWhile_cons_of_neg (by simp [noSpace first (by simp)])

theorem mem_dropWhile_of_fails {α : Type} {test : α → Bool} {items : List α} {item : α}
    (isItem : item ∈ items) (fails : test item = false) : item ∈ items.dropWhile test := by
  rw [← List.takeWhile_append_dropWhile (p := test) (l := items)] at isItem
  rcases List.mem_append.mp isItem with taken | dropped
  · rw [List.mem_takeWhile_imp taken] at fails
    cases fails
  · exact dropped

/-- A letter that is no white space is not stripped. -/
theorem mem_strip {text : PyText} {point : CodePoint} (isPoint : point ∈ text)
    (letter : isSpace point = false) : point ∈ strip text :=
  List.mem_reverse.mpr (mem_dropWhile_of_fails
    (List.mem_reverse.mpr (mem_dropWhile_of_fails isPoint letter)) letter)

theorem strip_spaced (front : PyText) {word : PyText} (nonempty : word ≠ [])
    (noSpace : ∀ point ∈ word, isSpace point = false) :
    strip (front ++ 32 :: word) = word ∨ ∃ kept, strip (front ++ 32 :: word) = kept ++ 32 :: word := by
  obtain ⟨start, last, isConcat⟩ : ∃ start last, word = start ++ [last] := by
    rcases List.eq_nil_or_concat word with empty | ⟨start, last, isConcat⟩
    · exact absurd empty nonempty
    · exact ⟨start, last, by rw [isConcat, List.concat_eq_append]⟩
  have letter : isSpace last = false := noSpace last (by simp [isConcat])
  by_cases blank : (front.dropWhile isSpace).isEmpty = true
  · left
    have dropped : (front ++ 32 :: word).dropWhile isSpace = word.dropWhile isSpace := by
      rw [List.dropWhile_append, if_pos blank, List.dropWhile_cons_of_pos (by decide)]
    have same : word.dropWhile isSpace = word := by
      obtain ⟨first, rest, isCons⟩ := List.exists_cons_of_ne_nil nonempty
      rw [isCons]
      exact List.dropWhile_cons_of_neg (by simp [noSpace first (by simp [isCons])])
    rw [same, isConcat] at dropped
    rw [isConcat]
    exact strip_of_dropWhile dropped letter
  · right
    have dropped : (front ++ 32 :: word).dropWhile isSpace =
        (front.dropWhile isSpace ++ 32 :: start) ++ [last] := by
      rw [List.dropWhile_append, if_neg blank, isConcat]
      simp
    refine ⟨front.dropWhile isSpace, ?_⟩
    rw [strip_of_dropWhile dropped letter, isConcat]
    simp

/-! ### Replacing -/

/-- `text.replace(old, new)` behind the letters of an occurrence. -/
def replaceFrom (old new : PyText) : ℕ → PyText → PyText
  | _, [] => []
  | skipped + 1, _ :: text => replaceFrom old new skipped text
  | 0, letter :: text =>
    if old.isPrefixOf (letter :: text) then new ++ replaceFrom old new (old.length - 1) text
    else letter :: replaceFrom old new 0 text

/-- `text.replace(old, new)`, of an `old` that is not empty. -/
def replace (old new text : PyText) : PyText := replaceFrom old new 0 text

theorem replace_ne_nil (old : PyText) {new text : PyText} (some_ : new ≠ []) (nonempty : text ≠ []) :
    replace old new text ≠ [] := by
  cases text with
  | nil => exact absurd rfl nonempty
  | cons letter text =>
    rw [replace, replaceFrom]
    split
    · exact List.append_ne_nil_of_left_ne_nil some_ _
    · exact List.cons_ne_nil _ _

/-- `text.split(separator, 1)`, where the separator is in the text. -/
def splitOnce (separator : PyText) : PyText → Option (PyText × PyText)
  | [] => none
  | letter :: text =>
    if separator.isPrefixOf (letter :: text) then some ([], (letter :: text).drop separator.length)
    else (splitOnce separator text).map fun parts => (letter :: parts.1, parts.2)

/-! ### Numbers -/

/-- A sign in front of a number. -/
def splitSign : PyText → Bool × PyText
  | 45 :: rest => (true, rest)
  | 43 :: rest => (false, rest)
  | text => (false, text)

theorem splitSign_eq_self {text : PyText} (noMinus : 45 ∉ text) (noPlus : 43 ∉ text) :
    splitSign text = (false, text) := by
  unfold splitSign
  split
  · exact absurd List.mem_cons_self noMinus
  · exact absurd List.mem_cons_self noPlus
  · rfl

/-- `int(text)`: white space around it, a sign, and digits in groups joined by underscores, 4300 at
most. -/
def parseInt (digit : CodePoint → Option Nat) (text : PyText) : Option Int := do
  let (negative, body) := splitSign (strip text)
  let groups := body.splitOn 95
  if groups.any List.isEmpty || 4300 < groups.flatten.length then none
  else
    let digits ← groups.flatten.mapM digit
    let value : Nat := digits.foldl (fun value next => 10 * value + next) 0
    return if negative then -(value : Int) else (value : Int)

end PyText

end UniApi.Lib
