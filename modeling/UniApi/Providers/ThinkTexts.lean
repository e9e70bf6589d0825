/-
**What is sent of one content, letter by letter.**

Of a content nothing but tags, the marks of a quote and line breaks are left out.

* `endThink_eq`: the two sides of `</think>`;
* `size_separate`, `cost`: how many letters are missing at least;
* `signs_separateBehind`, `signs_endThink`: how many signs `<` are missing.
-/

import UniApi.Lib.Words
import UniApi.Providers.ThinkTags

namespace UniApi.Providers.OpenaiStream

open UniApi.Lib UniApi.Streaming

/-! ### Tags -/

/-- `<think>`. -/
def thinkTag : PyText := Utf8.points "<think>"

/-- `</think>`. -/
def endTag : PyText := Utf8.points "</think>"

theorem marked_thinkTag : PyText.Marked thinkTag 60 := ⟨⟨Utf8.points "think>", rfl, by decide⟩⟩

theorem marked_endTag : PyText.Marked endTag 60 := ⟨⟨Utf8.points "/think>", rfl, by decide⟩⟩

theorem has_iff {needle : String} {text : PyText} :
    has needle text = true ↔ Utf8.points needle <:+: text :=
  isSubstring_iff

theorem has_thinkTag {text : PyText} : has "<think>" text = true ↔ thinkTag <:+: text :=
    isSubstring_iff

theorem has_endTag {text : PyText} : has "</think>" text = true ↔ endTag <:+: text := isSubstring_iff

/-- A text without tags. -/
structure NoTags (text : PyText) : Prop where
  noThink : ¬ thinkTag <:+: text
  noEnd : ¬ endTag <:+: text

theorem NoTags.of_infix {text part : PyText} (noTags : NoTags text)
    (inside : part <:+: text) : NoTags part :=
  ⟨fun found => noTags.noThink (found.trans inside), fun found => noTags.noEnd (found.trans inside)⟩

theorem NoTags.left {front back : PyText} (noTags : NoTags (front ++ back)) : NoTags front :=
  noTags.of_infix (List.prefix_append front back).isInfix

theorem NoTags.right {front back : PyText} (noTags : NoTags (front ++ back)) : NoTags back :=
  noTags.of_infix (List.suffix_append front back).isInfix

theorem noTags_of_mem {texts : List PyText} {words : PyText} (noTags : NoTags texts.flatten)
    (among : words ∈ texts) : NoTags words :=
  noTags.of_infix (List.infix_of_mem_flatten among)

/-! ### Letters and line breaks -/

/-- The letters of a text, without line breaks. -/
def letters (text : PyText) : PyText := text.filter (· != 10)

/-- A text of line breaks alone. -/
def Blank (text : PyText) : Prop := ∀ point ∈ text, point = 10

/-- A text without the line breaks in front. -/
def trimFront (text : PyText) : PyText := text.dropWhile (· == 10)

/-- A text without the line breaks behind. -/
def trimBack (text : PyText) : PyText := text.rdropWhile (· == 10)

/-- A text without the line breaks around it. -/
def trim (text : PyText) : PyText := trimBack (trimFront text)

section Breaks

variable {text front back : PyText}

theorem letters_append (first second : PyText) :
    letters (first ++ second) = letters first ++ letters second :=
  List.filter_append _ _

theorem blank_iff : Blank text ↔ letters text = [] := by
  rw [letters, List.filter_eq_nil_iff]
  exact forall₂_congr fun point _ => by simp

theorem trimFront_of_blank (blank : Blank text) : trimFront text = [] :=
  List.dropWhile_eq_nil_iff.mpr fun point among => by simp [blank point among]

theorem blank_of_trimFront (empty : trimFront text = []) : Blank text := fun point among => by
  simpa using List.dropWhile_eq_nil_iff.mp empty point among

theorem trimFront_append_of_blank (blank : Blank front) (back : PyText) :
    trimFront (front ++ back) = trimFront back :=
  List.dropWhile_append_of_pos fun point among => by simp [blank point among]

/-- In front of other letters line breaks behind are not taken off. -/
theorem trimFront_append (some_ : ¬ Blank front) (back : PyText) :
    trimFront (front ++ back) = trimFront front ++ back := by
  have inside : ¬ (front.dropWhile (· == 10)).isEmpty = true := fun empty =>
    some_ (blank_of_trimFront (List.isEmpty_iff.mp empty))
  rw [trimFront, List.dropWhile_append, if_neg inside]
  rfl

theorem trimBack_eq_reverse (text : PyText) : trimBack text = (trimFront text.reverse).reverse := rfl

theorem blank_reverse : Blank text.reverse ↔ Blank text :=
  forall_congr' fun _ => by rw [List.mem_reverse]

theorem trimBack_append_of_blank (front : PyText) (blank : Blank back) :
    trimBack (front ++ back) = trimBack front := by
  rw [trimBack_eq_reverse, List.reverse_append, trimFront_append_of_blank (blank_reverse.mpr blank)]
  rfl

theorem trimBack_append (front : PyText) (some_ : ¬ Blank back) :
    trimBack (front ++ back) = front ++ trimBack back := by
  rw [trimBack_eq_reverse, List.reverse_append, trimFront_append (mt blank_reverse.mp some_),
    List.reverse_append,
    List.reverse_reverse]
  rfl

theorem letters_trimFront (text : PyText) : letters (trimFront text) = letters text := by
  have blank : letters (text.takeWhile (· == 10)) = [] := by
    rw [← blank_iff]
    exact fun point among => by simpa using List.mem_takeWhile_imp among
  calc
    letters (trimFront text) = letters (text.takeWhile (· == 10)) ++ letters (trimFront text) := by
      rw [blank]
      rfl
    _ = letters text := by rw [← letters_append, trimFront, List.takeWhile_append_dropWhile]

theorem letters_reverse (text : PyText) : letters text.reverse = (letters text).reverse :=
    List.filter_reverse

theorem letters_trimBack (text : PyText) : letters (trimBack text) = letters text := by
  rw [trimBack_eq_reverse, letters_reverse, letters_trimFront, letters_reverse, List.reverse_reverse]

theorem letters_trim (text : PyText) : letters (trim text) = letters text := by
  rw [trim, letters_trimBack, letters_trimFront]

end Breaks

/-! ### The two sides of `</think>` -/

instance (text : PyText) : Decidable (Blank text) :=
  inferInstanceAs (Decidable (∀ point ∈ text, point = 10))

section Sides

variable {before after text : PyText}

theorem endTag_shown (front : PyText) : trimBack (front ++ endTag) = front ++ endTag :=
  trimBack_append front (by decide)

/-- **The two sides of `</think>`.** -/
theorem endThink_eq (noEnd : ¬ endTag <:+: before) (noEnd' : ¬ endTag <:+: after) :
    endThink (before ++ endTag ++ after) =
      if Blank after then (trimBack before, [])
      else if Blank before then ([], trimFront after) else (before, after) := by
  have removed : replaced "</think>" "" (before ++ endTag ++ after) = before ++ after := by
    show PyText.remove endTag _ = _
    rw [marked_endTag.remove_append noEnd, PyText.remove_of_absent noEnd']
  rw [endThink]
  show (if endTag.isSuffixOf (trimBack (before ++ endTag ++ after)) = true then
      (trimBack (replaced "</think>" "" (before ++ endTag ++ after)), ([] : PyText))
    else if endTag.isPrefixOf (trimFront (before ++ endTag ++ after)) = true then
      ([], trimFront (replaced "</think>" "" (before ++ endTag ++ after)))
    else (PyText.splitOnce endTag (before ++ endTag ++ after)).getD
      (before ++ endTag ++ after, [])) = _
  rw [removed]
  by_cases blankAfter : Blank after
  · have ends : endTag.isSuffixOf (trimBack (before ++ endTag ++ after)) = true := by
      rw [trimBack_append_of_blank _ blankAfter, endTag_shown]
      exact List.isSuffixOf_iff_suffix.mpr (List.suffix_append _ _)
    rw [if_pos ends, if_pos blankAfter, trimBack_append_of_blank before blankAfter]
  have noSuffix : ¬ endTag.isSuffixOf (trimBack (before ++ endTag ++ after)) = true := by
    rw [List.isSuffixOf_iff_suffix, trimBack_append _ blankAfter]
    rintro ⟨front, same⟩
    have inside : trimBack after <+: after := List.rdropWhile_prefix _ after
    have once := marked_endTag.unique noEnd (fun found => noEnd' (found.trans inside.isInfix))
      ((List.append_nil _).trans same)
    refine blankAfter (blank_iff.mpr ?_)
    rw [← letters_trimBack, ← once.2]
    rfl
  rw [if_neg noSuffix, if_neg blankAfter]
  by_cases blankBefore : Blank before
  · have begins : endTag.isPrefixOf (trimFront (before ++ endTag ++ after)) = true := by
      rw [List.append_assoc, trimFront_append_of_blank blankBefore]
      exact List.isPrefixOf_iff_prefix.mpr (List.prefix_append endTag after)
    rw [if_pos begins, if_pos blankBefore, trimFront_append_of_blank blankBefore]
  · have noPrefix : ¬ endTag.isPrefixOf (trimFront (before ++ endTag ++ after)) = true := by
      rw [List.isPrefixOf_iff_prefix, List.append_assoc, trimFront_append blankBefore]
      intro begins
      have here := marked_endTag.prefix_of_append (mt blank_of_trimFront blankBefore) begins
      exact noEnd (here.isInfix.trans (List.dropWhile_suffix _).isInfix)
    rw [if_neg noPrefix, if_neg blankBefore, marked_endTag.splitOnce_append noEnd]
    rfl

theorem letters_endThink (noEnd : ¬ endTag <:+: before) (noEnd' : ¬ endTag <:+: after) :
    letters (endThink (before ++ endTag ++ after)).1 = letters before ∧
      letters (endThink (before ++ endTag ++ after)).2 = letters after := by
  rw [endThink_eq noEnd noEnd']
  split_ifs with blankAfter blankBefore
  · exact ⟨letters_trimBack before, (blank_iff.mp blankAfter).symm⟩
  · exact ⟨(blank_iff.mp blankBefore).symm, letters_trimFront after⟩
  · exact ⟨rfl, rfl⟩

/-- How many letters are sent. -/
def size (result : PyText × PyText) : ℕ := (letters result.1).length + (letters result.2).length

/-- A second tag is taken out with the first one, unless it is left where it is. -/
theorem endThink_again (noEnd : ¬ endTag <:+: before) (again : endTag <:+: after) :
    endThink (before ++ endTag ++ after) = (before, after) ∨
      size (endThink (before ++ endTag ++ after)) + 16 ≤
        (letters (before ++ endTag ++ after)).length := by
  have tag : (letters endTag).length = 8 := by decide
  have removed : (letters (PyText.remove endTag (before ++ endTag ++ after))).length + 16 ≤
      (letters (before ++ endTag ++ after)).length := by
    have fewer := PyText.length_remove marked_endTag.ne_nil (· != 10) again
    rw [marked_endTag.remove_append noEnd, letters_append, letters_append, letters_append,
      List.length_append,
      List.length_append, List.length_append]
    simp only [letters] at tag ⊢
    omega
  rw [endThink]
  split_ifs
  · refine .inr ?_
    show (letters (trimBack (PyText.remove endTag (before ++ endTag ++ after)))).length + 0 + 16 ≤ _
    rw [letters_trimBack]
    exact removed
  · refine .inr ?_
    show 0 + (letters (trimFront (PyText.remove endTag (before ++ endTag ++ after)))).length + 16 ≤ _
    rw [letters_trimFront]
    omega
  · refine .inl ?_
    show (PyText.splitOnce endTag _).getD _ = _
    rw [marked_endTag.splitOnce_append noEnd]
    rfl

theorem size_endThink (found : endTag <:+: text) :
    size (endThink text) + 8 ≤ (letters text).length := by
  obtain ⟨before, after, rfl, noEnd⟩ := marked_endTag.exists_first found
  have tag : (letters endTag).length = 8 := by decide
  by_cases again : endTag <:+: after
  · rcases endThink_again noEnd again with same | fewer
    · rw [same, letters_append, letters_append, List.length_append, List.length_append, tag]
      show (letters before).length + (letters after).length + 8 ≤ _
      omega
    · omega
  · obtain ⟨isBefore, isAfter⟩ := letters_endThink noEnd again
    rw [size, isBefore, isAfter, letters_append, letters_append, List.length_append,
      List.length_append, tag]
    omega

end Sides

/-! ### How much is missing -/

section Costs

variable {flags : Flags} {words : PyText}

theorem size_thought (flags : Flags) (words : PyText) :
    size (thought flags words).2 = (letters words).length :=
  Nat.add_zero _

theorem letters_replaced_le {old : String} (nonempty : Utf8.points old ≠ []) (text : PyText) :
    (letters (replaced old "" text)).length ≤ (letters text).length :=
  ((PyText.remove_sublist nonempty text).filter _).length_le

theorem letters_quoted_le (words : PyText) :
    (letters (quoted words)).length ≤ (letters words).length := by
  rw [quoted]
  split_ifs
  · exact (letters_replaced_le (by decide) _).trans (letters_replaced_le (by decide) _)
  · exact le_rfl

theorem size_separateQuote (flags : Flags) (words : PyText) :
    size (separateQuote flags words).2 ≤ (letters words).length := by
  have shorter := letters_quoted_le words
  have text := @letters_replaced_le "\n> " (by decide) (quoted words)
  have line := @letters_replaced_le "\n" (by decide) (replaced "\n> " "" (quoted words))
  rw [separateQuote]
  dsimp only
  split_ifs
  · rw [size_thought]
    omega
  · rw [size_thought]
    omega
  · exact (Nat.zero_add _).le

theorem size_opened (opens : opensQuote words = true) (noBlank : has "\n\n" (quoted words) = false)
    (untagged : flags.tagged = false) :
    size (separateQuote flags words).2 + 11 ≤ (letters words).length := by
  obtain ⟨begins, -⟩ := Bool.and_eq_true_iff.mp opens
  have found : Utf8.points "Thinking..." <:+: words := isSubstring_iff.mp begins
  have missing := PyText.length_remove (by decide) (· != 10) found
  have word : ((Utf8.points "Thinking...").filter (· != 10)).length = 11 := by decide
  have shorter : (letters (quoted words)).length + 11 ≤ (letters words).length := by
    rw [quoted, if_pos opens]
    have mark := @letters_replaced_le "\n> " (by decide) (replaced "Thinking..." "" words)
    simp only [letters] at mark ⊢
    simp only [replaced] at mark ⊢
    simp only [PyText.remove] at missing
    show _ ≤ _
    have same : Utf8.points "" = [] := rfl
    rw [same] at mark ⊢
    omega
  have text := @letters_replaced_le "\n> " (by decide) (quoted words)
  have line := @letters_replaced_le "\n" (by decide) (replaced "\n> " "" (quoted words))
  have inside : (((flags.thinking || opensQuote words) &&
      (!has "\n\n" (quoted words) || flags.tagged)) &&
      !flags.tagged) = true := by rw [opens, noBlank, untagged, Bool.or_true]; rfl
  rw [separateQuote]
  dsimp only
  rw [if_pos inside]
  split_ifs
  · rw [size_thought]
    omega
  · rw [size_thought]
    omega

/-- The letters of the tags in a content. -/
def cost (words : PyText) : ℕ :=
  (if thinkTag <:+: words then 7 else 0) + if endTag <:+: PyText.remove thinkTag words then 8 else 0

theorem size_separateBehind (flags : Flags) (words : PyText) :
    size (separateBehind flags words).2 + (if endTag <:+: words then 8 else 0) ≤
      (letters words).length := by
  rw [separateBehind]
  by_cases closes : endTag <:+: words
  · rw [if_pos (has_endTag.mpr closes), if_pos closes]
    exact size_endThink closes
  · have breaks := @letters_replaced_le "\n\n" (by decide) words
    rw [if_neg (mt has_endTag.mp closes), if_neg closes, Nat.add_zero]
    split_ifs
    · exact (size_thought _ _).le
    · exact (size_thought _ _).trans_le breaks
    · exact size_separateQuote flags words

/-- **The tags are missing** in what is sent. -/
theorem size_separate (flags : Flags) (words : PyText) :
    size (separate flags words).2 + cost words ≤ (letters words).length := by
  rw [separate, cost]
  by_cases opens : thinkTag <:+: words
  · have behind := size_separateBehind { flags with thinking := true, tagged := true }
      (PyText.remove thinkTag words)
    have missing := PyText.length_remove marked_thinkTag.ne_nil (· != 10) opens
    have tag : (thinkTag.filter (· != 10)).length = 7 := by decide
    rw [if_pos (has_thinkTag.mpr opens), if_pos opens]
    show size (separateBehind _ (PyText.remove thinkTag words)).2 + _ ≤ _
    simp only [letters] at behind ⊢
    omega
  · rw [if_neg (mt has_thinkTag.mp opens), if_neg opens, PyText.remove_of_absent opens, Nat.zero_add]
    exact size_separateBehind flags words

end Costs

/-! ### Signs -/

/-- How many signs `<` a text has. -/
def signs (text : PyText) : ℕ := (text.filter (· == 60)).length

theorem signs_append (first second : PyText) :
    signs (first ++ second) = signs first + signs second := by
  rw [signs, List.filter_append, List.length_append]
  rfl

/-- How many signs are sent. -/
def sentSigns (result : PyText × PyText) : ℕ := signs result.1 + signs result.2

section Signs

variable {flags : Flags} {words before after : PyText}

theorem signs_replaced {old : String} (nonempty : Utf8.points old ≠ [])
    (apart : ∀ letter ∈ Utf8.points old, (letter == 60) = false) (text : PyText) :
    signs (replaced old "" text) = signs text :=
  congrArg List.length (PyText.filter_remove nonempty apart text)

theorem signs_quoted (words : PyText) : signs (quoted words) = signs words := by
  rw [quoted]
  split_ifs
  · rw [signs_replaced (by decide) (by decide), signs_replaced (by decide) (by decide)]
  · rfl

theorem signs_separateQuote (flags : Flags) (words : PyText) :
    sentSigns (separateQuote flags words).2 = signs words := by
  have text : signs (replaced "\n> " "" (quoted words)) = signs words := by
    rw [signs_replaced (by decide) (by decide), signs_quoted]
  rw [separateQuote]
  dsimp only
  split_ifs
  · exact text
  · exact (signs_replaced (by decide) (by decide) _).trans text
  · exact Nat.zero_add _

/-- **Without `</think>` every sign is sent.** -/
theorem signs_separateBehind (noEnd : ¬ endTag <:+: words) :
    sentSigns (separateBehind flags words).2 = signs words := by
  rw [separateBehind, if_neg (mt has_endTag.mp noEnd)]
  split_ifs
  · rfl
  · exact signs_replaced (by decide) (by decide) words
  · exact signs_separateQuote flags words

theorem signs_trimFront (text : PyText) : signs (trimFront text) = signs text := by
  have none : signs (text.takeWhile (· == 10)) = 0 := by
    rw [signs, List.length_eq_zero_iff, List.filter_eq_nil_iff]
    intro point among
    have isBreak : point = 10 := by simpa using List.mem_takeWhile_imp among
    rw [isBreak]
    decide
  calc
    signs (trimFront text) = signs (text.takeWhile (· == 10)) + signs (trimFront text) := by
      rw [none, Nat.zero_add]
    _ = signs text := by rw [← signs_append, trimFront, List.takeWhile_append_dropWhile]

theorem signs_trimBack (text : PyText) : signs (trimBack text) = signs text := by
  have back (text : PyText) : signs text.reverse = signs text := by
    rw [signs, signs, List.filter_reverse, List.length_reverse]
  rw [trimBack_eq_reverse, back, signs_trimFront, back]

theorem signs_of_blank (blank : Blank words) : signs words = 0 := by
  rw [signs, List.length_eq_zero_iff, List.filter_eq_nil_iff]
  intro point among
  rw [blank point among]
  decide

/-- **Of one `</think>` one sign is missing.** -/
theorem signs_endThink (noEnd : ¬ endTag <:+: before) (noEnd' : ¬ endTag <:+: after) :
    sentSigns (endThink (before ++ endTag ++ after)) + 1 = signs (before ++ endTag ++ after) := by
  have tag : signs endTag = 1 := by decide
  rw [endThink_eq noEnd noEnd', signs_append, signs_append, tag]
  split_ifs with blankAfter blankBefore
  · show signs (trimBack before) + 0 + 1 = _
    rw [signs_trimBack, signs_of_blank blankAfter]
  · show 0 + signs (trimFront after) + 1 = _
    rw [signs_trimFront, signs_of_blank blankBefore]
    omega
  · show signs before + signs after + 1 = _
    omega

end Signs

end UniApi.Providers.OpenaiStream
