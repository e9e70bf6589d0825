/-
**JSON texts as an encoder writes them.**

The encoder writes a value with a space behind commas and colons. It escapes the letters of strings one by
one, and may escape everything but printable ASCII or only what JSON requires.

* `dumps_below`: with everything else escaped, a text is ASCII and has no delete character;
* `mem_dumps`: a letter of a string that is not escaped stands in the text;
* `dumps_congr`: two ways to escape that agree on the letters of all strings give one text.
-/

import Mathlib.Tactic.Common
import UniApi.Lib.Utf8

namespace UniApi.Lib

/-- A number as it is written: some ASCII text. -/
structure NumberText where
  text : List ℕ
  ascii : ∀ point ∈ text, point < 127

/-- A value that is written as JSON, with the members of its objects in order. -/
inductive JsonValue where
  | null
  | bool (value : Bool)
  | number (value : NumberText)
  | string (text : List ℕ)
  | array (items : List JsonValue)
  | object (members : List (List ℕ × JsonValue))

namespace JsonDump

/-! ### Escapes -/

/-- A hexadecimal digit, in lower case. -/
def hexDigit (digit : ℕ) : ℕ := if digit < 10 then 48 + digit else 87 + digit

/-- `\u` and four digits. -/
def escapeUnit (unit : ℕ) : List ℕ :=
  [92, 117, hexDigit (unit / 4096 % 16), hexDigit (unit / 256 % 16), hexDigit (unit / 16 % 16),
    hexDigit (unit % 16)]

/-- The letters with a short escape. -/
def shortEscape (point : ℕ) : Option (List ℕ) :=
  if point = 92 then some [92, 92]
  else if point = 34 then some [92, 34]
  else if point = 8 then some [92, 98]
  else if point = 12 then some [92, 102]
  else if point = 10 then some [92, 110]
  else if point = 13 then some [92, 114]
  else if point = 9 then some [92, 116]
  else none

/-- A letter, with only the escapes that JSON requires. -/
def escapeBasic (point : ℕ) : List ℕ :=
  match shortEscape point with
  | some escape => escape
  | none => if point < 32 then escapeUnit point else [point]

/-- A letter, with everything but printable ASCII escaped. A letter outside the basic plane is escaped as
two surrogates. -/
def escapeAscii (point : ℕ) : List ℕ :=
  match shortEscape point with
  | some escape => escape
  | none =>
    if 32 ≤ point ∧ point ≤ 126 then [point]
    else if point < 0x10000 then escapeUnit point
    else
      escapeUnit (0xD800 + (point - 0x10000) / 1024 % 1024) ++ escapeUnit (0xDC00 + (point - 0x10000) % 1024)

/-! ### The encoder -/

variable (escape : ℕ → List ℕ)

def quote (text : List ℕ) : List ℕ := 34 :: text.flatMap escape ++ [34]

mutual

def dumpsWith : JsonValue → List ℕ
  | .null => Utf8.points "null"
  | .bool true => Utf8.points "true"
  | .bool false => Utf8.points "false"
  | .number value => value.text
  | .string text => quote escape text
  | .array items => 91 :: dumpsItems items ++ [93]
  | .object members => 123 :: dumpsMembers members ++ [125]

def dumpsItems : List JsonValue → List ℕ
  | [] => []
  | [item] => dumpsWith item
  | item :: next :: rest => dumpsWith item ++ [44, 32] ++ dumpsItems (next :: rest)

def dumpsMembers : List (List ℕ × JsonValue) → List ℕ
  | [] => []
  | [(key, value)] => quote escape key ++ [58, 32] ++ dumpsWith value
  | (key, value) :: next :: rest =>
    quote escape key ++ [58, 32] ++ dumpsWith value ++ [44, 32] ++ dumpsMembers (next :: rest)

end

mutual

/-- The strings of a value: its keys and its texts. -/
def strings : JsonValue → List (List ℕ)
  | .string text => [text]
  | .array items => stringsItems items
  | .object members => stringsMembers members
  | _ => []

def stringsItems : List JsonValue → List (List ℕ)
  | [] => []
  | item :: rest => strings item ++ stringsItems rest

def stringsMembers : List (List ℕ × JsonValue) → List (List ℕ)
  | [] => []
  | (key, value) :: rest => key :: strings value ++ stringsMembers rest

end

/-- `json.dumps`, with the separators it has by default. -/
def dumps (ensureAscii : Bool) (value : JsonValue) : List ℕ :=
  dumpsWith (if ensureAscii then escapeAscii else escapeBasic) value

/-! ### What is in a text -/

variable {escape} {point : ℕ} {other : ℕ → List ℕ}

theorem mem_quote {text : List ℕ} (here : point ∈ text)
    (plain : escape point = [point]) : point ∈ quote escape text :=
  List.mem_cons_of_mem _ (List.mem_append_left _
    (List.mem_flatMap.mpr ⟨point, here, plain ▸ List.mem_singleton_self point⟩))

theorem quote_below {bound : ℕ} (wide : 34 < bound) (escapes : ∀ point, ∀ letter ∈ escape point, letter < bound)
    (text : List ℕ) : ∀ letter ∈ quote escape text, letter < bound := by
  intro letter inside
  rcases List.mem_cons.mp inside with rfl | inside
  · exact wide
  rcases List.mem_append.mp inside with inside | last
  · obtain ⟨point, -, isLetter⟩ := List.mem_flatMap.mp inside
    exact escapes point letter isLetter
  · rw [List.mem_singleton.mp last]
    exact wide

theorem quote_congr {text : List ℕ}
    (agree : ∀ point ∈ text, escape point = other point) : quote escape text = quote other text := by
  unfold quote
  rw [List.flatMap_congr agree]

mutual

/-- **A letter that is not escaped** stands in the text. -/
theorem mem_dumpsWith (plain : escape point = [point]) :
    ∀ {value : JsonValue} {text : List ℕ}, text ∈ strings value → point ∈ text →
      point ∈ dumpsWith escape value
  | .string text, _, listed, here => by
    rw [strings, List.mem_singleton] at listed
    rw [dumpsWith]
    exact mem_quote (listed ▸ here) plain
  | .array items, _, listed, here => by
    rw [strings] at listed
    rw [dumpsWith]
    exact List.mem_cons_of_mem _ (List.mem_append_left _ (mem_dumpsItems plain listed here))
  | .object members, _, listed, here => by
    rw [strings] at listed
    rw [dumpsWith]
    exact List.mem_cons_of_mem _ (List.mem_append_left _ (mem_dumpsMembers plain listed here))
  | .null, _, listed, _ => by simp [strings] at listed
  | .bool _, _, listed, _ => by simp [strings] at listed
  | .number _, _, listed, _ => by simp [strings] at listed

theorem mem_dumpsItems (plain : escape point = [point]) :
    ∀ {items : List JsonValue} {text : List ℕ}, text ∈ stringsItems items → point ∈ text →
      point ∈ dumpsItems escape items
  | [], _, listed, _ => by simp [stringsItems] at listed
  | [item], _, listed, here => by
    rw [stringsItems, stringsItems, List.append_nil] at listed
    rw [dumpsItems]
    exact mem_dumpsWith plain listed here
  | item :: next :: rest, _, listed, here => by
    rw [stringsItems, List.mem_append] at listed
    rw [dumpsItems]
    rcases listed with first | behind
    · exact List.mem_append_left _ (List.mem_append_left _ (mem_dumpsWith plain first here))
    · exact List.mem_append_right _ (mem_dumpsItems plain behind here)

theorem mem_dumpsMembers (plain : escape point = [point]) :
    ∀ {members : List (List ℕ × JsonValue)} {text : List ℕ},
      text ∈ stringsMembers members → point ∈ text → point ∈ dumpsMembers escape members
  | [], _, listed, _ => by simp [stringsMembers] at listed
  | [(key, value)], _, listed, here => by
    rw [stringsMembers, stringsMembers, List.append_nil, List.mem_cons] at listed
    rw [dumpsMembers]
    rcases listed with rfl | inside
    · exact List.mem_append_left _ (List.mem_append_left _ (mem_quote here plain))
    · exact List.mem_append_right _ (mem_dumpsWith plain inside here)
  | (key, value) :: next :: rest, _, listed, here => by
    rw [stringsMembers, List.cons_append, List.mem_cons, List.mem_append] at listed
    rw [dumpsMembers]
    rcases listed with rfl | inside | behind
    · exact List.mem_append_left _ (List.mem_append_left _ (List.mem_append_left _
        (List.mem_append_left _ (mem_quote here plain))))
    · exact List.mem_append_left _ (List.mem_append_left _
        (List.mem_append_right _ (mem_dumpsWith plain inside here)))
    · exact List.mem_append_right _ (mem_dumpsMembers plain behind here)

end

mutual

/-- **Every letter of a text** is below a bound that holds for the escapes. -/
theorem dumpsWith_below (escapes : ∀ point, ∀ letter ∈ escape point, letter < 127) :
    ∀ (value : JsonValue), ∀ letter ∈ dumpsWith escape value, letter < 127
  | .null => by
    rw [dumpsWith, Utf8.points_ofList]
    decide
  | .bool true => by
    rw [dumpsWith, Utf8.points_ofList]
    decide
  | .bool false => by
    rw [dumpsWith, Utf8.points_ofList]
    decide
  | .number value => by
    rw [dumpsWith]
    exact value.ascii
  | .string text => by
    rw [dumpsWith]
    exact quote_below (by decide) escapes text
  | .array items => by
    rw [dumpsWith]
    simp only [List.cons_append, List.forall_mem_cons, List.forall_mem_append, List.not_mem_nil,
      false_implies, implies_true, and_true]
    exact ⟨by decide, dumpsItems_below escapes items, by decide⟩
  | .object members => by
    rw [dumpsWith]
    simp only [List.cons_append, List.forall_mem_cons, List.forall_mem_append, List.not_mem_nil,
      false_implies, implies_true, and_true]
    exact ⟨by decide, dumpsMembers_below escapes members, by decide⟩

theorem dumpsItems_below (escapes : ∀ point, ∀ letter ∈ escape point, letter < 127) :
    ∀ (items : List JsonValue), ∀ letter ∈ dumpsItems escape items, letter < 127
  | [] => by simp [dumpsItems]
  | [item] => by
    rw [dumpsItems]
    exact dumpsWith_below escapes item
  | item :: next :: rest => by
    rw [dumpsItems]
    simp only [List.forall_mem_append]
    exact ⟨⟨dumpsWith_below escapes item, by decide⟩, dumpsItems_below escapes (next :: rest)⟩

theorem dumpsMembers_below (escapes : ∀ point, ∀ letter ∈ escape point, letter < 127) :
    ∀ (members : List (List ℕ × JsonValue)), ∀ letter ∈ dumpsMembers escape members, letter < 127
  | [] => by simp [dumpsMembers]
  | [(key, value)] => by
    rw [dumpsMembers]
    simp only [List.forall_mem_append]
    exact ⟨⟨quote_below (by decide) escapes key, by decide⟩, dumpsWith_below escapes value⟩
  | (key, value) :: next :: rest => by
    rw [dumpsMembers]
    simp only [List.forall_mem_append]
    exact ⟨⟨⟨⟨quote_below (by decide) escapes key, by decide⟩, dumpsWith_below escapes value⟩, by decide⟩,
      dumpsMembers_below escapes (next :: rest)⟩

end

mutual

/-- **Two ways to escape** that agree on the letters of all strings give one text. -/
theorem dumpsWith_congr :
    ∀ (value : JsonValue), (∀ text ∈ strings value, ∀ point ∈ text, escape point = other point) →
      dumpsWith escape value = dumpsWith other value
  | .null, _ => by rw [dumpsWith, dumpsWith]
  | .bool true, _ => by rw [dumpsWith, dumpsWith]
  | .bool false, _ => by rw [dumpsWith, dumpsWith]
  | .number _, _ => by rw [dumpsWith, dumpsWith]
  | .string text, agree => by
    rw [dumpsWith, dumpsWith]
    exact quote_congr (agree text (by rw [strings]; exact List.mem_singleton_self text))
  | .array items, agree => by
    rw [strings] at agree
    rw [dumpsWith, dumpsWith, dumpsItems_congr items agree]
  | .object members, agree => by
    rw [strings] at agree
    rw [dumpsWith, dumpsWith, dumpsMembers_congr members agree]

theorem dumpsItems_congr :
    ∀ (items : List JsonValue),
      (∀ text ∈ stringsItems items, ∀ point ∈ text, escape point = other point) →
        dumpsItems escape items = dumpsItems other items
  | [], _ => by rw [dumpsItems, dumpsItems]
  | [item], agree => by
    rw [stringsItems, List.forall_mem_append] at agree
    rw [dumpsItems, dumpsItems, dumpsWith_congr item agree.1]
  | item :: next :: rest, agree => by
    rw [stringsItems, List.forall_mem_append] at agree
    rw [dumpsItems, dumpsItems, dumpsWith_congr item agree.1, dumpsItems_congr (next :: rest) agree.2]

theorem dumpsMembers_congr :
    ∀ (members : List (List ℕ × JsonValue)),
      (∀ text ∈ stringsMembers members, ∀ point ∈ text, escape point = other point) →
        dumpsMembers escape members = dumpsMembers other members
  | [], _ => by rw [dumpsMembers, dumpsMembers]
  | [(key, value)], agree => by
    rw [stringsMembers, List.cons_append, List.forall_mem_cons, List.forall_mem_append] at agree
    rw [dumpsMembers, dumpsMembers, quote_congr agree.1, dumpsWith_congr value agree.2.1]
  | (key, value) :: next :: rest, agree => by
    rw [stringsMembers, List.cons_append, List.forall_mem_cons, List.forall_mem_append] at agree
    rw [dumpsMembers, dumpsMembers, quote_congr agree.1, dumpsWith_congr value agree.2.1,
      dumpsMembers_congr (next :: rest) agree.2.2]

end

/-! ### The two ways to escape -/

theorem hexDigit_below {digit : ℕ} (small : digit < 16) : hexDigit digit < 127 := by
  unfold hexDigit
  split <;> omega

theorem escapeUnit_below (unit : ℕ) : ∀ letter ∈ escapeUnit unit, letter < 127 := by
  have digit : ∀ value : ℕ, hexDigit (value % 16) < 127 :=
    fun value => hexDigit_below (Nat.mod_lt _ (by decide))
  unfold escapeUnit
  simp only [List.forall_mem_cons, List.not_mem_nil, false_implies, implies_true, and_true]
  exact ⟨by decide, by decide, digit _, digit _, digit _, digit _⟩

theorem shortEscape_below {short : List ℕ}
    (isShort : shortEscape point = some short) : ∀ letter ∈ short, letter < 127 := by
  unfold shortEscape at isShort
  repeat' split at isShort
  all_goals
    cases isShort
    try decide

theorem escapeAscii_below (point : ℕ) : ∀ letter ∈ escapeAscii point, letter < 127 := by
  unfold escapeAscii
  split
  · rename_i short isShort
    exact shortEscape_below isShort
  · split
    · rename_i printable
      intro letter isLetter
      rw [List.mem_singleton.mp isLetter]
      omega
    · split
      · exact escapeUnit_below point
      · rw [List.forall_mem_append]
        exact ⟨escapeUnit_below _, escapeUnit_below _⟩

theorem escapeAscii_eq_escapeBasic (plain : point < 127) :
    escapeAscii point = escapeBasic point := by
  unfold escapeAscii escapeBasic
  cases shortEscape point with
  | some short => rfl
  | none =>
    dsimp only
    by_cases printable : 32 ≤ point
    · rw [if_pos ⟨printable, by omega⟩, if_neg (by omega)]
    · rw [if_neg fun both => printable both.1, if_pos (by omega), if_pos (by omega)]

/-- From the delete character on, nothing is escaped that JSON does not require. -/
theorem escapeBasic_of_high (high : 127 ≤ point) : escapeBasic point = [point] := by
  have long : shortEscape point = none := by
    unfold shortEscape
    repeat rw [if_neg (by omega)]
  unfold escapeBasic
  rw [long]
  exact if_neg (by omega)

/-- **An ASCII text**, without a delete character. -/
theorem dumps_below (value : JsonValue) : ∀ letter ∈ dumps true value, letter < 127 :=
  dumpsWith_below escapeAscii_below value

/-- **A letter from the delete character on** stands in the text as it is. -/
theorem mem_dumps {value : JsonValue} {text : List ℕ}
    (listed : text ∈ strings value) (here : point ∈ text) (high : 127 ≤ point) :
    point ∈ dumps false value :=
  mem_dumpsWith (escapeBasic_of_high high) listed here

/-- **One text**, as long as every letter is below the delete character. -/
theorem dumps_congr {value : JsonValue}
    (plain : ∀ text ∈ strings value, ∀ point ∈ text, point < 127) : dumps true value = dumps false value :=
  dumpsWith_congr value fun text listed point here => escapeAscii_eq_escapeBasic (plain text listed point here)

end JsonDump

end UniApi.Lib
