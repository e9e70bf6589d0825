/-
**Event streams along an encoding.**

The same stream is read as characters, as code points and as UTF-8 bytes. An encoding that keeps the
signs of an event stream, and uses them for nothing else, carries lines, fields and pairs along:

* `splitOn_coded`, `normalizeLines_coded`: lines of an encoded text are the encoded lines;
* `read_coded`, `pair?_coded`: so is what they say;
* `utf8_keepsSigns`, `points_keepsSigns`: UTF-8 and code points are such encodings.
-/

import UniApi.Lib.EventStream

set_option linter.unusedSectionVars false

namespace UniApi.Lib

variable {α β : Type*} [DecidableEq α] [DecidableEq β]

/-- An encoding writes the sign as one symbol, and uses that symbol for nothing else. -/
structure KeepsSign (sign : α) (sign' : β) (code : α → List β) : Prop where
  code_sign : code sign = [sign']
  absent : ∀ symbol, symbol ≠ sign → sign' ∉ code symbol

/-- An encoding that keeps the signs of an event stream and can be read back. -/
structure KeepsSigns (signs : EventSigns α) (signs' : EventSigns β) (code : α → List β) : Prop where
  cr : KeepsSign signs.cr signs'.cr code
  lf : KeepsSign signs.lf signs'.lf code
  colon : KeepsSign signs.colon signs'.colon code
  space : KeepsSign signs.space signs'.space code
  nonempty : ∀ symbol, code symbol ≠ []
  injective : Function.Injective (List.flatMap code)
  eventField : signs'.eventField = signs.eventField.flatMap code
  dataField : signs'.dataField = signs.dataField.flatMap code

/-- A reading, encoded. -/
def Reading.encode (code : α → List β) (reading : Reading α) : Reading β :=
  ⟨reading.event.map (List.flatMap code), reading.data.map (List.flatMap code)⟩

section Sign

variable {sign : α} {sign' : β} {code : α → List β}

/-- **The symbols before a sign, and those from it on.** -/
theorem KeepsSign.while_coded (keeps : KeepsSign sign sign' code) (text : List α) :
    (text.flatMap code).takeWhile (· ≠ sign') = (text.takeWhile (· ≠ sign)).flatMap code ∧
      (text.flatMap code).dropWhile (· ≠ sign') = (text.dropWhile (· ≠ sign)).flatMap code := by
  induction text with
  | nil => exact ⟨rfl, rfl⟩
  | cons symbol rest ih =>
    by_cases isSign : symbol = sign
    · subst isSign
      simp [keeps.code_sign]
    · have all : ∀ coded ∈ code symbol, decide (coded ≠ sign') = true := by
        intro coded member
        refine decide_eq_true ?_
        rintro rfl
        exact keeps.absent symbol isSign member
      rw [List.flatMap_cons, List.takeWhile_append_of_pos all, List.dropWhile_append_of_pos all,
        ih.1, ih.2]
      simp [isSign]

theorem KeepsSign.removeMark_coded (keeps : KeepsSign sign sign' code)
    (nonempty : ∀ symbol, code symbol ≠ []) (text : List α) :
    removeMark sign' (text.flatMap code) = (removeMark sign text).flatMap code := by
  cases text with
  | nil => rfl
  | cons symbol rest =>
    by_cases isSign : symbol = sign
    · simp [isSign, keeps.code_sign, removeMark]
    · obtain ⟨first, others, same⟩ := List.exists_cons_of_ne_nil (nonempty symbol)
      have other : first ≠ sign' := by
        rintro rfl
        exact keeps.absent symbol isSign (by rw [same]; exact List.mem_cons_self)
      simp [removeMark, isSign, same, other]

theorem splitOn_append_of_not_mem {first : List β} (absent : sign' ∉ first) (second : List β) :
    (first ++ second).splitOn sign' = (second.splitOn sign').modifyHead (first ++ ·) := by
  induction first with
  | nil => cases split : second.splitOn sign' <;> simp [split]
  | cons symbol rest ih =>
    have other : symbol ≠ sign' := fun same => absent (same ▸ List.mem_cons_self)
    rw [List.cons_append, List.splitOn_cons_eq_if_modifyHead, if_neg (by simpa using other),
      ih fun member => absent (List.mem_cons_of_mem _ member), List.modifyHead_modifyHead]
    rfl

/-- **Splitting at a sign commutes with the encoding.** -/
theorem KeepsSign.splitOn_coded (keeps : KeepsSign sign sign' code) (text : List α) :
    (text.flatMap code).splitOn sign' = (text.splitOn sign).map (List.flatMap code) := by
  induction text with
  | nil => simp
  | cons symbol rest ih =>
    rw [List.splitOn_cons_eq_if_modifyHead, List.flatMap_cons]
    by_cases isSign : symbol = sign
    · simp [isSign, keeps.code_sign, List.splitOn_cons_eq_if_modifyHead, ih]
    · rw [if_neg (by simpa using isSign), splitOn_append_of_not_mem (keeps.absent symbol isSign), ih]
      cases split : rest.splitOn sign with
      | nil => exact absurd split (List.splitOn_ne_nil _ _)
      | cons head tail => simp

theorem intercalate_coded (keeps : KeepsSign sign sign' code) (parts : List (List α)) :
    ([sign].intercalate parts).flatMap code = [sign'].intercalate (parts.map (List.flatMap code)) := by
  induction parts with
  | nil => rfl
  | cons part rest ih =>
    cases rest with
    | nil => simp
    | cons next later =>
      rw [List.map_cons, List.map_cons, List.intercalate_cons_cons, List.intercalate_cons_cons,
        List.flatMap_append, List.flatMap_append, ih]
      simp [keeps.code_sign]

end Sign

namespace KeepsSigns

variable {signs : EventSigns α} {signs' : EventSigns β} {code : α → List β}

theorem lineEndings (keeps : KeepsSigns signs signs' code) :
    KeepsLineEndings signs.cr signs.lf signs'.cr signs'.lf code where
  cr_code := keeps.cr.code_sign
  lf_code := keeps.lf.code_sign
  different := signs'.different
  nonempty := keeps.nonempty
  no_cr := keeps.cr.absent
  no_lf := keeps.lf.absent

/-- **Turning line endings into LF commutes with the encoding.** -/
theorem newlines_coded (keeps : KeepsSigns signs signs' code) (afterCr : Bool) (text : List α) :
    (newlines signs'.cr signs'.lf).run afterCr (text.flatMap code) =
      (((newlines signs.cr signs.lf).run afterCr text).1.flatMap code,
        ((newlines signs.cr signs.lf).run afterCr text).2) := by
  induction text generalizing afterCr with
  | nil => rfl
  | cons symbol rest ih =>
    have step : (newlines signs'.cr signs'.lf).run afterCr (code symbol) =
        (((newlines signs.cr signs.lf).step afterCr symbol).1.flatMap code,
          ((newlines signs.cr signs.lf).step afterCr symbol).2) := by
      by_cases isCr : symbol = signs.cr
      · simp [isCr, keeps.cr.code_sign, newlines_step_cr, keeps.lf.code_sign]
      by_cases isLf : symbol = signs.lf
      · subst isLf
        cases afterCr with
        | false =>
          rw [newlines_step_plain false isCr (by simp)]
          simp [keeps.lf.code_sign, newlines, signs'.different.symm]
        | true =>
          simp [keeps.lf.code_sign, newlines_step_swallow signs.different,
            newlines_step_swallow signs'.different]
      · rw [newlines_step_plain afterCr isCr fun swallowed => isLf swallowed.1]
        obtain ⟨first, others, same⟩ := List.exists_cons_of_ne_nil (keeps.nonempty symbol)
        have noCr := keeps.cr.absent symbol isCr
        have noLf := keeps.lf.absent symbol isLf
        rw [same] at noCr noLf
        have head : (newlines signs'.cr signs'.lf).step afterCr first = ([first], false) :=
          newlines_step_plain afterCr (fun is => noCr (is ▸ List.mem_cons_self))
          (fun is => noLf (is.1 ▸ List.mem_cons_self))
        have tail : (newlines signs'.cr signs'.lf).run false others = (others, false) :=
          newlines_run_plain others fun member => noCr (List.mem_cons_of_mem _ member)
        rw [same, Mealy.run_cons, head, tail]
        simp [same]
    rw [List.flatMap_cons, Mealy.run_append, step, Mealy.run_cons, ih]
    simp

theorem normalizeLines_coded (keeps : KeepsSigns signs signs' code) (text : List α) :
    normalizeLines signs'.cr signs'.lf (text.flatMap code) =
      (normalizeLines signs.cr signs.lf text).flatMap code := by
  rw [← newlines_run signs'.different, ← newlines_run signs.different, keeps.newlines_coded]

/-- **A field and its value.** -/
theorem fieldOf_coded (keeps : KeepsSigns signs signs' code) (line : List α) :
    fieldOf signs' (line.flatMap code) =
      ((fieldOf signs line).1.flatMap code, (fieldOf signs line).2.flatMap code) := by
  obtain ⟨takes, drops⟩ := keeps.colon.while_coded line
  unfold fieldOf
  rw [takes, drops]
  cases value : line.dropWhile (· ≠ signs.colon) with
  | nil => rfl
  | cons colon rest =>
    have isColon : colon = signs.colon := by
      have stops := List.head?_dropWhile_not (fun symbol => decide (symbol ≠ signs.colon)) line
      rw [value] at stops
      simpa using stops
    rw [List.flatMap_cons, isColon, keeps.colon.code_sign]
    simp only [List.singleton_append, keeps.space.removeMark_coded keeps.nonempty]

theorem take_coded (keeps : KeepsSigns signs signs' code) (reading : Reading α) (line : List α) :
    (reading.encode code).take signs' (line.flatMap code) =
      (reading.take signs line).encode code := by
  unfold Reading.take
  rw [keeps.fieldOf_coded, keeps.eventField, keeps.dataField]
  simp only [keeps.injective.eq_iff]
  split
  · rfl
  split
  · simp [Reading.encode]
  · rfl

/-- **What lines say**, encoded. -/
theorem read_coded (keeps : KeepsSigns signs signs' code) (lines : List (List α)) :
    read signs' (lines.map (List.flatMap code)) = (read signs lines).encode code := by
  induction lines using List.reverseRecOn with
  | nil => rfl
  | append_singleton before line ih =>
    rw [List.map_append, List.map_singleton, read_concat, read_concat, ih, keeps.take_coded]

/-- **The pair of an event**, encoded. -/
theorem pair?_coded (keeps : KeepsSigns signs signs' code) (reading : Reading α) :
    (reading.encode code).pair? signs' =
      (reading.pair? signs).map fun pair => (pair.1.flatMap code, pair.2.flatMap code) := by
  unfold Reading.pair? Reading.encode
  simp only [List.map_eq_nil_iff]
  split
  · rfl
  · have joined := intercalate_coded keeps.lf reading.data
    cases event : reading.event with
    | none => simp [joined]
    | some name => simp [joined]

end KeepsSigns

/-! ### Characters, bytes and code points -/

/-- The signs as characters. -/
def charSigns : EventSigns Char where
  cr := '\r'
  lf := '\n'
  colon := ':'
  space := ' '
  eventField := "event".toList
  dataField := "data".toList
  different := by decide
  eventField_ne := by decide
  dataField_ne := by decide

/-- The signs as bytes. -/
def byteSigns : EventSigns UInt8 where
  cr := 13
  lf := 10
  colon := 58
  space := 32
  eventField := Utf8.lit "event"
  dataField := Utf8.lit "data"
  different := by decide
  eventField_ne := by decide
  dataField_ne := by decide

/-- The signs as code points. -/
def pointSigns : EventSigns CodePoint where
  cr := 13
  lf := 10
  colon := 58
  space := 32
  eventField := Utf8.points "event"
  dataField := Utf8.points "data"
  different := by decide
  eventField_ne := by decide
  dataField_ne := by decide

theorem utf8_keepsSign {sign : Char} {byte : UInt8} (coded : String.utf8EncodeChar sign = [byte])
    (ascii : byte.toNat < 0x80) : KeepsSign sign byte String.utf8EncodeChar where
  code_sign := coded
  absent letter other member := by
    have own : byte ∈ String.utf8EncodeChar sign := by simp [coded]
    have same := (mem_encodeChar_ascii ascii).mp own
    exact other (char_eq_of_toNat (((mem_encodeChar_ascii ascii).mp member).trans same.symm))

theorem points_injective : Function.Injective (List.map Char.toNat) :=
  List.map_injective_iff.mpr fun _ _ same => char_eq_of_toNat same

theorem encode_injective : Function.Injective Utf8.encode := by
  intro first second same
  have decoded := congrArg Utf8.decodeAll same
  rw [Utf8.decodeAll_encode, Utf8.decodeAll_encode] at decoded
  exact points_injective (Option.some.inj decoded)

/-- **UTF-8 keeps the signs.** -/
theorem utf8_keepsSigns : KeepsSigns charSigns byteSigns String.utf8EncodeChar where
  cr := utf8_keepsSign (by decide) (by decide)
  lf := utf8_keepsSign (by decide) (by decide)
  colon := utf8_keepsSign (by decide) (by decide)
  space := utf8_keepsSign (by decide) (by decide)
  nonempty := utf8_keepsLineEndings.nonempty
  injective := encode_injective
  eventField := by decide
  dataField := by decide

theorem points_keepsSign {sign : Char} {point : CodePoint} (same : sign.toNat = point) :
    KeepsSign sign point fun letter => [letter.toNat] where
  code_sign := by rw [same]
  absent letter other member :=
    other (char_eq_of_toNat ((List.mem_singleton.mp member).symm.trans same.symm))

theorem flatMap_toNat : List.flatMap (fun letter : Char => [letter.toNat]) = List.map Char.toNat :=
  funext fun _ => List.map_eq_flatMap.symm

/-- **So do code points.** -/
theorem points_keepsSigns : KeepsSigns charSigns pointSigns fun letter => [letter.toNat] where
  cr := points_keepsSign rfl
  lf := points_keepsSign rfl
  colon := points_keepsSign rfl
  space := points_keepsSign rfl
  nonempty _ := List.cons_ne_nil _ _
  injective := flatMap_toNat ▸ points_injective
  eventField := by decide
  dataField := by decide

/-! ### Cutting UTF-8 beside ASCII -/

/-- A character whose encoding has an ASCII byte is that byte. -/
theorem encodeChar_ascii {letter : Char} {byte : UInt8} (ascii : byte.toNat < 0x80)
    (member : byte ∈ String.utf8EncodeChar letter) : String.utf8EncodeChar letter = [byte] := by
  have same := (mem_encodeChar_ascii ascii).mp member
  have value : letter.val.toNat = byte.toNat := same
  unfold String.utf8EncodeChar
  simp only [value]
  rw [if_pos (by omega)]
  simp

/-- **UTF-8 before an ASCII byte is UTF-8**, and so is what starts with the byte. -/
theorem encode_eq_append {letters : List Char} {first second : Bytes} {byte : UInt8}
    (ascii : byte.toNat < 0x80) (same : Utf8.encode letters = first ++ byte :: second) :
    ∃ before after, first = Utf8.encode before ∧ second = Utf8.encode after ∧
      ∃ letter, letters = before ++ letter :: after := by
  induction letters generalizing first with
  | nil => simp at same
  | cons letter rest ih =>
    rw [Utf8.encode_cons] at same
    rcases List.append_eq_append_iff.mp same with ⟨middle, rfl, later⟩ | ⟨middle, coded, later⟩
    · obtain ⟨before, after, rfl, rfl, other, rfl⟩ := ih later
      exact ⟨letter :: before, after, (Utf8.encode_cons _ _).symm, rfl, other, rfl⟩
    · cases middle with
      | nil =>
        rw [List.nil_append] at later
        rw [List.append_nil] at coded
        obtain ⟨before, after, empty, rfl, other, rfl⟩ := @ih [] later.symm
        have none : before = [] := by
          cases before with
          | nil => rfl
          | cons head tail =>
            exact absurd empty.symm (by simp [utf8_keepsLineEndings.nonempty head])
        subst none
        exact ⟨[letter], after, by simp [← coded], rfl, other, rfl⟩
      | cons head tail =>
        obtain ⟨rfl, rfl⟩ := List.cons.inj later
        have whole : String.utf8EncodeChar letter = [byte] := encodeChar_ascii ascii (by rw [coded]; simp)
        rw [whole] at coded
        have none : first = [] ∧ tail = [] := by
          have sizes := congrArg List.length coded
          simp only [List.length_append, List.length_cons, List.length_nil] at sizes
          exact ⟨List.eq_nil_of_length_eq_zero (by omega), List.eq_nil_of_length_eq_zero (by omega)⟩
        rw [none.1, none.2]
        exact ⟨[], rest, rfl, rfl, letter, rfl⟩

end UniApi.Lib
