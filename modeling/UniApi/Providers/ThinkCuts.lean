/-
**Thinking tags in chunks: the cuts that rebuild a message are the clean ones.**

What is missing of a message that is rebuilt are the letters of the two tags, no more and no
less. Every cut that is not clean has other letters missing, or puts the ones that are left in
another order.

* `letters_of_rebuilt`, `signs_all`: how many letters, and how many signs `<`, are missing;
* `spurious_together`, `spurious_apart`: taking out `<think>` makes another `</think>`;
* `rebuilt_iff_clean`: a message is rebuilt just when it is cut cleanly;
* `think_tags`: what `transform_event` sends of chunks.
-/

import Mathlib.Algebra.Order.BigOperators.Group.List
import UniApi.Providers.ThinkMessage

namespace UniApi.Providers.OpenaiStream

open UniApi.Lib UniApi.Streaming

/-- **The contents are a cut of the message**, whose parts hold no tags. -/
structure IsCut (texts : List PyText) (shown reasoning content : PyText) : Prop where
  whole : texts.flatten = message shown reasoning content
  shown : NoTags shown
  reasoning : NoTags reasoning
  content : NoTags content

/-! ### What is missing -/

section Missing

variable {texts front rest : List PyText} {shown reasoning content : PyText}
  {result : PyText × PyText} {flags : Flags}

theorem letters_of_rebuilt (rebuilt : Rebuilt shown reasoning content result) :
    letters result.1 = letters reasoning ∧ letters result.2 = letters shown ++ letters content := by
  obtain ⟨isReasoning, behind, isContent, same⟩ := rebuilt
  constructor
  · rw [← letters_trim result.1, isReasoning, letters_trim]
  · rw [isContent, letters_append, ← letters_trimFront behind, same, letters_trimFront]

/-- **The letters of the tags are missing.** -/
theorem size_of_rebuilt (cut : IsCut texts shown reasoning content)
    (rebuilt : Rebuilt shown reasoning content result) :
    size result + 15 = (letters texts.flatten).length := by
  obtain ⟨isReasoning, isContent⟩ := letters_of_rebuilt rebuilt
  have think : (letters thinkTag).length = 7 := by decide
  have close : (letters endTag).length = 8 := by decide
  rw [size, isReasoning, isContent, cut.whole, message]
  simp only [letters_append, List.length_append]
  omega

theorem signs_letters (text : PyText) : signs (letters text) = signs text := by
  rw [signs, signs, letters, List.filter_filter]
  refine congrArg List.length (List.filter_congr fun point _ => ?_)
  by_cases sign : point = 60
  · rw [sign]
    rfl
  · rw [beq_eq_false_iff_ne.mpr sign]
    rfl

/-- **The signs of the tags are missing.** -/
theorem signs_of_rebuilt (cut : IsCut texts shown reasoning content)
    (rebuilt : Rebuilt shown reasoning content result) :
    sentSigns result + 2 = signs texts.flatten := by
  obtain ⟨isReasoning, isContent⟩ := letters_of_rebuilt rebuilt
  have think : signs thinkTag = 1 := by decide
  have close : signs endTag = 1 := by decide
  rw [sentSigns, ← signs_letters result.1, ← signs_letters result.2, isReasoning, isContent,
    signs_append, signs_letters, signs_letters, signs_letters, cut.whole, message]
  simp only [signs_append]
  omega

theorem signs_all (noTags : ∀ words ∈ texts, NoTags words) (flags : Flags) :
    sentSigns (separateAll flags texts) = signs texts.flatten := by
  induction texts generalizing flags with
  | nil => rfl
  | cons words rest ih =>
    have here : sentSigns (separate flags words).2 = signs words := by
      rw [separate, if_neg (mt has_thinkTag.mp (noTags words List.mem_cons_self).noThink)]
      exact signs_separateBehind (noTags words List.mem_cons_self).noEnd
    have later := ih (fun other among => noTags other (List.mem_cons_of_mem _ among))
      (separate flags words).1
    rw [separateAll_cons, List.flatten_cons, signs_append]
    simp only [sentSigns, signs_append] at here later ⊢
    omega

/-- The signs of a run with one content that has a tag. -/
theorem signs_around {words : PyText} (noTags : ∀ words ∈ front, NoTags words)
    (noTags' : ∀ words ∈ rest, NoTags words)
    (missing : ∀ flags, sentSigns (separate flags words).2 + 1 = signs words) (flags : Flags) :
    sentSigns (separateAll flags (front ++ words :: rest)) + 1 =
      signs (front ++ words :: rest).flatten := by
  have run := (Runs.self flags front).append (.self (flagsAfter flags front) (words :: rest))
  have before := signs_all noTags flags
  have here := missing (flagsAfter flags front)
  have later := signs_all noTags' (separate (flagsAfter flags front) words).1
  rw [run.sends, List.flatten_append, List.flatten_cons, signs_append, signs_append,
    separateAll_cons]
  simp only [sentSigns, signs_append] at before here later ⊢
  omega

end Missing

/-! ### Where the tags are -/

section Places

variable {texts front rest : List PyText} {shown reasoning content begun first before after : PyText}

theorem exists_tagged {tag : PyText} (found : ∃ words ∈ texts, tag <:+: words) :
    ∃ front before after rest, texts = front ++ (before ++ tag ++ after) :: rest := by
  obtain ⟨words, among, before, after, rfl⟩ := found
  obtain ⟨front, rest, isCut⟩ := List.append_of_mem among
  exact ⟨front, before, after, rest, isCut⟩

/-- **The place of `<think>`.** -/
theorem thinkTag_place
    (cut : IsCut (front ++ (begun ++ thinkTag ++ first) :: rest) shown reasoning content) :
    shown = front.flatten ++ begun ∧ first ++ rest.flatten = reasoning ++ endTag ++ content := by
  have whole := cut.whole
  rw [List.flatten_append, List.flatten_cons, message] at whole
  have once := marked_thinkTag.unique cut.shown.noThink
    (noThink_endTag cut.reasoning.noThink cut.content.noThink)
    (show front.flatten ++ begun ++ thinkTag ++ (first ++ rest.flatten) =
      shown ++ thinkTag ++ (reasoning ++ endTag ++ content) by
        simp only [List.append_assoc] at whole ⊢
        exact whole)
  exact ⟨once.1.symm, once.2⟩

/-- **The place of `</think>`.** -/
theorem endTag_place (reasoning_ : NoTags reasoning) (content_ : NoTags content)
    (whole : before ++ endTag ++ after = reasoning ++ endTag ++ content) :
    reasoning = before ∧ content = after :=
  (marked_endTag.unique reasoning_.noEnd content_.noEnd whole).imp Eq.symm Eq.symm

theorem thinkTag_once
    (cut : IsCut (front ++ (begun ++ thinkTag ++ first) :: rest) shown reasoning content) :
    ¬ thinkTag <:+: first ∧ ∀ words ∈ rest, ¬ thinkTag <:+: words := by
  have noThink := noThink_endTag cut.reasoning.noThink cut.content.noThink
  rw [← (thinkTag_place cut).2] at noThink
  refine ⟨fun found => noThink (found.trans (List.prefix_append _ _).isInfix), ?_⟩
  intro words among found
  have inside := List.infix_of_mem_flatten among
  exact noThink (found.trans (inside.trans (List.suffix_append _ _).isInfix))

end Places

/-! ### Another `</think>` -/

section Spurious

variable {front rest : List PyText} {shown reasoning content begun first after : PyText}

theorem exists_spurious (noEnd : ¬ endTag <:+: begun) (noEnd' : ¬ endTag <:+: first)
    (spurious : endTag <:+: begun ++ first) :
    ∃ head left right tail, begun = head ++ left ∧ first = right ++ tail ∧
      endTag = left ++ right ∧ right ≠ [] ∧ 60 ∈ left ∧ 60 ∉ right := by
  rcases PyText.infix_append_cases spurious with inside | inside |
    ⟨head, left, right, tail, isBegun, isFirst, isTag, some_, some'⟩
  · exact absurd inside noEnd
  · exact absurd inside noEnd'
  · obtain ⟨sign, left, rfl⟩ := List.exists_cons_of_ne_nil some_
    obtain ⟨rfl, isRest⟩ := List.cons_eq_cons.mp
      (show 60 :: Utf8.points "/think>" = sign :: (left ++ right) from isTag)
    have once : (60 : CodePoint) ∉ Utf8.points "/think>" := by decide
    rw [isRest, List.mem_append, not_or] at once
    exact ⟨head, _, right, tail, isBegun, isFirst, isTag, some', List.mem_cons_self, once.2⟩

theorem letters_part {left right : PyText} (isTag : endTag = left ++ right) :
    letters left = left ∧ letters right = right ∧ (84 : CodePoint) ∉ left ∧
      (84 : CodePoint) ∉ right := by
  have noBreak : ∀ point ∈ endTag, (point != 10) = true := by decide
  have noMark : (84 : CodePoint) ∉ endTag := by decide
  rw [isTag, List.mem_append, not_or] at noMark
  rw [isTag] at noBreak
  exact ⟨List.filter_eq_self.mpr fun point among => noBreak point (List.mem_append_left _ among),
    List.filter_eq_self.mpr fun point among => noBreak point (List.mem_append_right _ among), noMark⟩

/-- **The letters of a message with another tag** are not the ones of the message. -/
theorem no_rebuilt {head left right tail hidden : PyText} (isTag : endTag = left ++ right)
    (some_ : right ≠ []) (inLeft : (60 : CodePoint) ∈ left) (notRight : (60 : CodePoint) ∉ right) {back : PyText}
    (mark : letters hidden = [] ∨ 84 ∈ letters (head ++ left ++ back))
    (whole : letters (head ++ left ++ back ++ hidden) = letters (tail ++ endTag ++ back))
    (part : letters (head ++ hidden) = letters (right ++ tail)) : False := by
  obtain ⟨isLeft, isRight, noMark, noMark'⟩ := letters_part isTag
  rw [isTag] at whole
  simp only [letters_append, isLeft, isRight] at mark whole part
  exact Words.no_swap inLeft notRight some_ noMark noMark' mark whole part

/-- **Another `</think>` in the content with both tags** does not rebuild the message. -/
theorem spurious_together
    (cut : IsCut (front ++ (begun ++ thinkTag ++ (reasoning ++ endTag ++ after)) :: rest)
      shown reasoning content)
    (unquoted : Unquoted front) (spurious : endTag <:+: begun ++ reasoning) :
    ¬ Rebuilt shown reasoning content
      (separateAll {} (front ++ (begun ++ thinkTag ++ (reasoning ++ endTag ++ after)) :: rest)) := by
  intro rebuilt
  obtain ⟨isShown, isRest⟩ := thinkTag_place cut
  rw [List.append_assoc] at isRest
  obtain ⟨-, isContent⟩ := endTag_place cut.reasoning cut.content isRest
  have noShown := cut.shown
  rw [isShown] at noShown
  have noBegun := noShown.right
  have noContent := cut.content
  rw [isContent] at noContent
  obtain ⟨head, left, right, tail, isBegun, isReasoning, isTag, some_, inLeft, notRight⟩ :=
    exists_spurious noBegun.noEnd cut.reasoning.noEnd spurious
  have text : begun ++ (reasoning ++ endTag ++ after) =
      head ++ endTag ++ (tail ++ endTag ++ after) := by
    calc
      begun ++ (reasoning ++ endTag ++ after) =
          head ++ (left ++ right) ++ (tail ++ endTag ++ after) := by
        rw [isBegun, isReasoning]
        simp only [List.append_assoc]
      _ = head ++ endTag ++ (tail ++ endTag ++ after) := by rw [← isTag]
  have step : separate {} (begun ++ thinkTag ++ (reasoning ++ endTag ++ after)) =
      (⟨false, false, true⟩, endThink (head ++ endTag ++ (tail ++ endTag ++ after))) := by
    have noThink := noThink_endTag cut.reasoning.noThink noContent.left.noThink
    rw [separate_open noBegun.noThink noThink, text, separateBehind_close ⟨head, _, rfl⟩]
    rfl
  have noHead : ¬ endTag <:+: head := by
    rw [isBegun] at noBegun
    exact noBegun.left.noEnd
  have run := runs_front (fun words among => noTags_of_mem noShown.left among) unquoted
  rcases endThink_again noHead ⟨tail, after, rfl⟩ with same | fewer
  · obtain ⟨last, seen, hidden, behind, isSeen⟩ :=
      runs_behind (fun words among => noTags_of_mem noContent.right among) false
    have whole := run.append (.cons (step.trans (by rw [same])) behind)
    rw [whole.sends] at rebuilt
    obtain ⟨sameReasoning, sameContent⟩ := letters_of_rebuilt rebuilt
    refine @no_rebuilt head left right tail hidden isTag some_ inLeft notRight
      (after ++ seen.flatten) ?_ ?_ ?_
    · rcases isSeen.mark with isNil | letter
      · exact .inl (isSeen.letters_hidden.trans (by rw [isNil]; rfl))
      · rw [← List.append_assoc, letters_append]
        exact .inr (List.mem_append_right _ letter)
    · rw [isShown, isBegun, isContent, isSeen.flatten] at sameContent
      simp only [letters_append, isSeen.letters_hidden, List.append_assoc,
        List.append_right_inj] at sameContent ⊢
      exact sameContent.symm
    · rw [isReasoning] at sameReasoning
      exact sameReasoning
  · -- two tags behind `<think>` are missing, more than the letters that may be
    have missing := size_of_rebuilt cut rebuilt
    have later := size_separateAll ⟨false, false, true⟩ rest
    have think : (letters thinkTag).length = 7 := by decide
    rw [size_of_runs run, separateAll_cons, step] at missing
    simp only [size, letters_append, List.flatten_append, List.flatten_cons,
      List.length_append] at missing later fewer
    have sameSize := congrArg (fun text => (letters text).length) text
    simp only [letters_append, List.length_append] at sameSize
    have none : (letters []).length = 0 := rfl
    omega

theorem begins_reasoning {right tail : PyText} (notRight : (60 : CodePoint) ∉ right)
    (same : right ++ tail = reasoning ++ endTag ++ content) : ∃ back, reasoning = right ++ back := by
  rw [List.append_assoc] at same
  rcases List.append_eq_append_iff.mp same with ⟨back, isReasoning, -⟩ | ⟨more, isRight, isTail⟩
  · exact ⟨back, isReasoning⟩
  · cases more with
    | nil => exact ⟨[], by rw [isRight, List.append_nil, List.append_nil]⟩
    | cons sign more =>
      obtain ⟨rfl, -⟩ := List.cons_eq_cons.mp
        (show 60 :: (Utf8.points "/think>" ++ content) = sign :: (more ++ tail) from isTail)
      exact absurd (by rw [isRight]; exact List.mem_append_right _ List.mem_cons_self) notRight

/-- **Another `</think>` in the content with `<think>`** does not rebuild the message. -/
theorem spurious_apart
    (cut : IsCut (front ++ (begun ++ thinkTag ++ first) :: rest) shown reasoning content)
    (unquoted : Unquoted front) (noEnd : ¬ endTag <:+: first)
    (noEnds : ∀ words ∈ rest, ¬ endTag <:+: words) (spurious : endTag <:+: begun ++ first) :
    ¬ Rebuilt shown reasoning content
      (separateAll {} (front ++ (begun ++ thinkTag ++ first) :: rest)) := by
  intro rebuilt
  obtain ⟨isShown, isRest⟩ := thinkTag_place cut
  have noShown := cut.shown
  rw [isShown] at noShown
  have noBegun := noShown.right
  obtain ⟨noFirst, noThinks⟩ := thinkTag_once cut
  have noRest : ∀ words ∈ rest, NoTags words := fun words among =>
    ⟨noThinks words among, noEnds words among⟩
  obtain ⟨head, left, right, tail, isBegun, isFirst, isTag, some_, inLeft, notRight⟩ :=
    exists_spurious noBegun.noEnd noEnd spurious
  have text : begun ++ first = head ++ endTag ++ tail := by
    calc
      begun ++ first = head ++ (left ++ right) ++ tail := by
        rw [isBegun, isFirst]
        simp only [List.append_assoc]
      _ = head ++ endTag ++ tail := by rw [← isTag]
  have noHead : ¬ endTag <:+: head := by
    rw [isBegun] at noBegun
    exact noBegun.left.noEnd
  have noTail : ¬ endTag <:+: tail := fun found =>
    noEnd (found.trans ⟨right, [], by rw [isFirst, List.append_nil]⟩)
  have step : separate {} (begun ++ thinkTag ++ first) =
      (⟨false, false, true⟩, endThink (head ++ endTag ++ tail)) := by
    rw [separate_open noBegun.noThink noFirst, text, separateBehind_close ⟨head, _, rfl⟩]
    rfl
  obtain ⟨before, after⟩ := letters_endThink noHead noTail
  generalize endThink (head ++ endTag ++ tail) = sent at step before after
  have run := runs_front (fun words among => noTags_of_mem noShown.left among) unquoted
  obtain ⟨last, seen, hidden, behind, isSeen⟩ := runs_behind noRest false
  have whole := run.append (.cons step behind)
  rw [whole.sends] at rebuilt
  obtain ⟨sameReasoning, sameContent⟩ := letters_of_rebuilt rebuilt
  rw [isFirst, List.append_assoc] at isRest
  obtain ⟨back, isReasoning⟩ := begins_reasoning notRight isRest
  rw [isReasoning, List.append_assoc, List.append_assoc, List.append_right_inj,
    isSeen.flatten] at isRest
  have lettersRest := congrArg letters isRest
  rw [isShown, isBegun] at sameContent
  simp only [letters_append, before, after, List.nil_append, List.append_assoc,
    List.append_right_inj] at sameReasoning sameContent lettersRest
  refine @no_rebuilt head left right back hidden isTag some_ inLeft notRight content ?_ ?_ ?_
  · rcases isSeen.mark with isNil | letter
    · exact .inl (isSeen.letters_hidden.trans (by rw [isNil]; rfl))
    · refine .inr ?_
      simp only [letters_append, List.append_assoc]
      rw [← sameContent]
      exact List.mem_append_right _ letter
  · simp only [letters_append, isSeen.letters_hidden, List.append_assoc]
    rw [← lettersRest, ← List.append_assoc (letters tail), sameContent, List.append_assoc,
      List.append_assoc]
  · rw [isReasoning] at sameReasoning
    rw [letters_append]
    exact sameReasoning

end Spurious

/-! ### The clean cuts -/

section Clean

variable {texts : List PyText} {shown reasoning content : PyText}

theorem thinkTag_found (cut : IsCut texts shown reasoning content)
    (rebuilt : Rebuilt shown reasoning content (separateAll {} texts)) :
    ∃ words ∈ texts, thinkTag <:+: words := by
  by_contra none
  push Not at none
  have missing := signs_of_rebuilt cut rebuilt
  by_cases found : ∃ words ∈ texts, endTag <:+: words
  · obtain ⟨front, before, after, rest, rfl⟩ := exists_tagged found
    have whole : front.flatten ++ before ++ endTag ++ (after ++ rest.flatten) =
        shown ++ thinkTag ++ reasoning ++ endTag ++ content := by
      rw [← message, ← cut.whole, List.flatten_append, List.flatten_cons]
      simp only [List.append_assoc]
    have noEnd := noEnd_thinkTag cut.shown.noEnd cut.reasoning.noEnd
    obtain ⟨isBefore, isAfter⟩ := marked_endTag.unique noEnd cut.content.noEnd whole
    rw [← isBefore] at noEnd
    have noContent := cut.content.noEnd
    rw [← isAfter] at noContent
    have noBefore : ¬ endTag <:+: before :=
      fun found => noEnd (found.trans (List.suffix_append _ _).isInfix)
    have noAfter : ¬ endTag <:+: after :=
      fun found => noContent (found.trans (List.prefix_append _ _).isInfix)
    have noFront (words) (among : words ∈ front) : NoTags words :=
      ⟨none words (List.mem_append_left _ among), fun found =>
        noEnd (found.trans ((List.infix_of_mem_flatten among).trans
          (List.prefix_append _ _).isInfix))⟩
    have noRest (words) (among : words ∈ rest) : NoTags words :=
      ⟨none words (List.mem_append_right _ (List.mem_cons_of_mem _ among)), fun found =>
        noContent (found.trans ((List.infix_of_mem_flatten among).trans
          (List.suffix_append _ _).isInfix))⟩
    have single (flags : Flags) : sentSigns (separate flags (before ++ endTag ++ after)).2 + 1
        = signs (before ++ endTag ++ after) := by
      have noThink := none (before ++ endTag ++ after) (List.mem_append_right _ List.mem_cons_self)
      rw [separate, if_neg (mt has_thinkTag.mp noThink), separateBehind_close ⟨before, after, rfl⟩]
      exact signs_endThink noBefore noAfter
    have all := signs_around noFront noRest single {}
    omega
  · push Not at found
    have all := signs_all (fun words among => ⟨none words among, found words among⟩) {}
    omega

/-- A message that is rebuilt has `</think>` in the content with `<think>` or behind it. -/
theorem endTag_found {front rest : List PyText} {begun first : PyText}
    (cut : IsCut (front ++ (begun ++ thinkTag ++ first) :: rest) shown reasoning content)
    (noEnd : ¬ endTag <:+: begun ++ first)
    (rebuilt : Rebuilt shown reasoning content
      (separateAll {} (front ++ (begun ++ thinkTag ++ first) :: rest))) :
    ∃ words ∈ rest, endTag <:+: words := by
  by_contra none
  push Not at none
  have missing := signs_of_rebuilt cut rebuilt
  have noShown := cut.shown
  rw [(thinkTag_place cut).1] at noShown
  obtain ⟨noFirst, noThinks⟩ := thinkTag_once cut
  have noRest (words) (among : words ∈ rest) : NoTags words :=
    ⟨noThinks words among, none words among⟩
  have single (flags : Flags) : sentSigns (separate flags (begun ++ thinkTag ++ first)).2 + 1
      = signs (begun ++ thinkTag ++ first) := by
    have think : signs thinkTag = 1 := by decide
    rw [separate_open noShown.right.noThink noFirst, signs_separateBehind noEnd]
    simp only [signs_append]
    omega
  have all := signs_around (fun words among => noTags_of_mem noShown.left among) noRest single {}
  omega

/-- The contents in front of the tags begin no quote. -/
theorem unquoted_of_rebuilt {front rest : List PyText} {begun first : PyText}
    (cut : IsCut (front ++ (begun ++ thinkTag ++ first) :: rest) shown reasoning content)
    (rebuilt : Rebuilt shown reasoning content
      (separateAll {} (front ++ (begun ++ thinkTag ++ first) :: rest))) :
    Unquoted front := by
  by_contra isQuoted
  have noShown := cut.shown
  rw [(thinkTag_place cut).1] at noShown
  have missing := size_of_rebuilt cut rebuilt
  have found : thinkTag <:+: begun ++ thinkTag ++ first := ⟨begun, first, rfl⟩
  have more := size_quoted (fun words among => noTags_of_mem noShown.left among) isQuoted
    ((begun ++ thinkTag ++ first) :: rest)
  rw [List.map_cons, List.sum_cons, cost, if_pos found] at more
  omega

/-- Behind another `</think>` there is none. -/
theorem noEnd_of_spurious {front rest : List PyText} {begun first : PyText}
    (cut : IsCut (front ++ (begun ++ thinkTag ++ first) :: rest) shown reasoning content)
    (spurious : endTag <:+: begun ++ first)
    (rebuilt : Rebuilt shown reasoning content
      (separateAll {} (front ++ (begun ++ thinkTag ++ first) :: rest))) :
    ∀ words ∈ rest, ¬ endTag <:+: words := by
  intro words among found
  have noShown := cut.shown
  rw [(thinkTag_place cut).1] at noShown
  obtain ⟨noFirst, noThinks⟩ := thinkTag_once cut
  have missing := size_of_rebuilt cut rebuilt
  have more := size_separateAll {} (front ++ (begun ++ thinkTag ++ first) :: rest)
  have here : cost (begun ++ thinkTag ++ first) = 15 := by
    rw [cost, if_pos ⟨begun, first, rfl⟩, marked_thinkTag.remove_append noShown.right.noThink,
      PyText.remove_of_absent noFirst, if_pos spurious]
  have later : 8 ≤ cost words := by
    rw [cost, PyText.remove_of_absent (noThinks words among), if_pos found]
    exact Nat.le_add_left _ _
  have sum : cost words ≤ (rest.map cost).sum := List.le_sum_of_mem (List.mem_map_of_mem among)
  rw [List.map_append, List.sum_append, List.map_cons, List.sum_cons, here] at more
  omega

/-- **A message that is rebuilt is cut cleanly.** -/
theorem clean_of_rebuilt (cut : IsCut texts shown reasoning content)
    (rebuilt : Rebuilt shown reasoning content (separateAll {} texts)) :
    Clean shown reasoning content texts := by
  obtain ⟨front, begun, first, rest, rfl⟩ := exists_tagged (thinkTag_found cut rebuilt)
  have unquoted := unquoted_of_rebuilt cut rebuilt
  obtain ⟨isShown, isRest⟩ := thinkTag_place cut
  have noShown := cut.shown
  rw [isShown] at noShown
  by_cases closes : endTag <:+: first
  · -- both tags are in one content
    obtain ⟨inner, after, rfl, -⟩ := marked_endTag.exists_first closes
    rw [List.append_assoc] at isRest
    obtain ⟨rfl, isContent⟩ := endTag_place cut.reasoning cut.content isRest
    have noContent := cut.content
    rw [isContent] at noContent
    have noEnd : ¬ endTag <:+: begun ++ reasoning :=
      fun spurious => spurious_together cut unquoted spurious rebuilt
    have parts := CutApart.together noShown cut.reasoning noContent
    rw [isShown, isContent, rebuilt_together_iff parts unquoted noEnd] at rebuilt
    exact .together front rest begun after isShown isContent rebuilt
  · have noEnd : ¬ endTag <:+: begun ++ first := fun spurious =>
      spurious_apart cut unquoted closes (noEnd_of_spurious cut spurious rebuilt) spurious rebuilt
    obtain ⟨middle, before, after, behind, rfl⟩ := exists_tagged (endTag_found cut noEnd rebuilt)
    have whole : first ++ middle.flatten ++ before ++ endTag ++ (after ++ behind.flatten) =
        reasoning ++ endTag ++ content := by
      rw [← isRest, List.flatten_append, List.flatten_cons]
      simp only [List.append_assoc]
    obtain ⟨isReasoning, isContent⟩ := endTag_place cut.reasoning cut.content whole
    have noReasoning := cut.reasoning
    rw [isReasoning] at noReasoning
    have noContent := cut.content
    rw [isContent] at noContent
    have parts := CutApart.of_noTags noShown noReasoning noContent
    rw [isShown, isReasoning, isContent, rebuilt_apart_iff parts unquoted noEnd] at rebuilt
    exact .apart front middle behind begun first before after isShown isReasoning isContent
      rebuilt.1 rebuilt.2

/-- **A message that is cut cleanly is rebuilt.** -/
theorem rebuilt_of_clean (shown_ : NoTags shown) (reasoning_ : NoTags reasoning)
    (content_ : NoTags content) (clean : Clean shown reasoning content texts) :
    Rebuilt shown reasoning content (separateAll {} texts) := by
  have noEnd {begun first : PyText} (blank : Blank begun) (noEnd : ¬ endTag <:+: first) :
      ¬ endTag <:+: begun ++ first := fun found =>
    noEnd (marked_endTag.infix_of_not_mem (fun sign => absurd (blank _ sign) (by decide)) found)
  cases clean with
  | apart front middle behind begun first before after isShown isReasoning isContent harmless
      lines =>
    subst isShown isReasoning isContent
    have parts := CutApart.of_noTags shown_ reasoning_ content_
    have once := noEnd harmless.blank reasoning_.left.left.noEnd
    exact (rebuilt_apart_iff parts harmless.unquoted once).mpr ⟨harmless, lines⟩
  | together front behind begun after isShown isContent harmless =>
    subst isShown isContent
    have parts := CutApart.together shown_ reasoning_ content_
    have once := noEnd harmless.blank reasoning_.noEnd
    exact (rebuilt_together_iff parts harmless.unquoted once).mpr harmless

/-- **A message is rebuilt just when it is cut cleanly.** -/
theorem rebuilt_iff_clean (cut : IsCut texts shown reasoning content) :
    Rebuilt shown reasoning content (separateAll {} texts) ↔ Clean shown reasoning content texts :=
  ⟨clean_of_rebuilt cut, rebuilt_of_clean cut.shown cut.reasoning cut.content⟩

end Clean

/-! ### Chunks -/

/-- What `transform_event` sends of chunks, from the beginning of a stream. -/
def separated (calls : RelayCalls) (chunks : List PyData) : PyText × PyText :=
  let sent := (transformEvents calls (chunks.map .data) {}).2.sent
  (reasonings sent, contents sent)

theorem separated_eq {calls : RelayCalls} {chunks : List PyData} {texts : List PyText}
    (areTexts : List.Forall₂ IsText chunks texts) :
    separated calls chunks = separateAll {} texts := by
  obtain ⟨items, sent, same⟩ := @transformEvents_texts calls chunks texts areTexts {} rfl
  show (reasonings (transformEvents calls (chunks.map .data) {}).2.sent,
    contents (transformEvents calls (chunks.map .data) {}).2.sent) = _
  rw [sent]
  exact same

/-- **The tags of a message that comes in chunks are separated from its texts exactly when it is
cut cleanly**: each tag in one chunk, nothing but line breaks in front of `<think>` in its chunk,
no quote in front of the tags or behind them, and no blank line between letters of the first
chunk with a reasoning. -/
theorem think_tags (calls : RelayCalls) {chunks : List PyData} {texts : List PyText}
    {shown reasoning content : PyText} (areTexts : List.Forall₂ IsText chunks texts)
    (cut : IsCut texts shown reasoning content) :
    Rebuilt shown reasoning content (separated calls chunks)
      ↔ Clean shown reasoning content texts := by
  rw [separated_eq areTexts]
  exact rebuilt_iff_clean cut

/-- A chunk with this content. -/
def textChunk (words : PyText) : PyData :=
  .dict [("choices", .list [.dict [("index", .int 0), ("delta", .dict [("content", .str words)])]])]

theorem textChunk_isText (words : PyText) : IsText (textChunk words) words where
  isChunk := ⟨⟨_, rfl⟩, rfl, rfl, rfl, ⟨words, .inl rfl⟩, .inl ⟨[], .inr ⟨rfl, rfl⟩⟩⟩
  content := rfl
  noReasoning := rfl
  noThought := rfl

theorem think_tags_apart : Rebuilt (Utf8.points "a") (Utf8.points "bc") (Utf8.points "de")
    (separated plainRelay [textChunk (Utf8.points "a"), textChunk (thinkTag ++ Utf8.points "b"),
      textChunk (Utf8.points "c" ++ endTag ++ Utf8.points "d"), textChunk (Utf8.points "e")]) := by
  have areTexts := List.Forall₂.cons (textChunk_isText (Utf8.points "a"))
    (.cons (textChunk_isText (thinkTag ++ Utf8.points "b"))
      (.cons (textChunk_isText (Utf8.points "c" ++ endTag ++ Utf8.points "d"))
        (.cons (textChunk_isText (Utf8.points "e")) .nil)))
  have harmless : Harmless [Utf8.points "a"] [] (Utf8.points "c") (Utf8.points "d")
      [Utf8.points "e"] := ⟨by decide, by decide, List.nil_prefix, by decide⟩
  refine (think_tags plainRelay areTexts ⟨by decide, ⟨by decide, by decide⟩,
    ⟨by decide, by decide⟩, ⟨by decide, by decide⟩⟩).mpr ?_
  exact .apart [Utf8.points "a"] [] [Utf8.points "e"] [] (Utf8.points "b") (Utf8.points "c")
    (Utf8.points "d") rfl rfl rfl harmless (by decide)

/-- `<think>` in two chunks is not found. -/
theorem cut_tag_sent :
    IsCut [Utf8.points "<thi", Utf8.points "nk>a</think>b"] [] (Utf8.points "a") (Utf8.points "b") ∧
      ¬ Rebuilt [] (Utf8.points "a") (Utf8.points "b") (separated plainRelay
        [textChunk (Utf8.points "<thi"), textChunk (Utf8.points "nk>a</think>b")]) := by
  refine ⟨⟨by decide, ⟨by decide, by decide⟩, ⟨by decide, by decide⟩, ⟨by decide, by decide⟩⟩, ?_⟩
  rw [separated_eq (.cons (textChunk_isText _) (.cons (textChunk_isText _) .nil))]
  rintro ⟨isReasoning, -⟩
  exact absurd isReasoning (by decide)

end UniApi.Providers.OpenaiStream
