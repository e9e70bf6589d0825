/-
**Thinking tags in chunks: when a message is rebuilt.**

A message with a thinking text between tags comes in contents, cut anywhere. It is rebuilt when
each tag lies in one of them, and when what shares a content with a tag, or what looks like a
quote, does no harm.

* `Clean`: how a message has to be cut;
* `rebuilt_iff`: when a message is rebuilt, from what a run sends;
* `rebuilt_apart_iff`, `rebuilt_together_iff`: the tags in two contents, or in one.
-/

import UniApi.Providers.ThinkRuns

namespace UniApi.Providers.OpenaiStream

open UniApi.Lib UniApi.Streaming

/-! ### Messages and their contents -/

/-- `P <think> R </think> C`. -/
def message (shown reasoning content : PyText) : PyText :=
    shown ++ thinkTag ++ reasoning ++ endTag ++ content

/-- **The message is rebuilt**: the reasoning up to line breaks around it, the content up to line
breaks in front of what stands behind the tags. -/
def Rebuilt (shown reasoning content : PyText) (result : PyText × PyText) : Prop :=
  trim result.1 = trim reasoning ∧
    ∃ behind, result.2 = shown ++ behind ∧ trimFront behind = trimFront content

/-- What is sent of the two sides of `</think>`. -/
def sides (before after : PyText) : PyText × PyText :=
  if Blank after then (trimBack before, [])
  else if Blank before then ([], trimFront after)
  else (before, after)

/-- The content behind the tags, if no quote begins there. -/
def visible (before after : PyText) (behind : List PyText) : PyText :=
    (sides before after).2 ++ behind.flatten

/-- What stands in front of `<think>` and behind `</think>` does no harm: nothing but line breaks
shares the content with `<think>`, as many come behind `</think>`, and no quote that goes on
begins there. -/
structure Harmless (front : List PyText) (begun before after : PyText)
    (behind : List PyText) : Prop where
  unquoted : Unquoted front
  blank : Blank begun
  shown : begun <+: visible before after behind
  closed : (behindQuote behind).flatten = []

/-- **The ways to cut a message that do no harm.** -/
inductive Clean (shown reasoning content : PyText) : List PyText → Prop
  /-- `<think>` and `</think>` are in two contents. -/
  | apart (front middle behind : List PyText) (begun first before after : PyText)
    (isShown : shown = front.flatten ++ begun)
    (isReasoning : reasoning = first ++ middle.flatten ++ before)
    (isContent : content = after ++ behind.flatten)
    (harmless : Harmless front begun before after behind)
    (lines : KeepsLines before ((begun ++ first) :: middle)) :
    Clean shown reasoning content
      (front ++ (begun ++ thinkTag ++ first) :: (middle ++ (before ++ endTag ++ after) :: behind))
  /-- `<think>` and `</think>` are in one content. -/
  | together (front behind : List PyText) (begun after : PyText)
    (isShown : shown = front.flatten ++ begun)
    (isContent : content = after ++ behind.flatten)
    (harmless : Harmless front begun (begun ++ reasoning) after behind) :
    Clean shown reasoning content
      (front ++ (begun ++ thinkTag ++ (reasoning ++ endTag ++ after)) :: behind)

section Sides

variable {before after : PyText}

theorem endThink_sides (noEnd : ¬ endTag <:+: before) (noEnd' : ¬ endTag <:+: after) :
    endThink (before ++ endTag ++ after) = sides before after := endThink_eq noEnd noEnd'

theorem letters_sides (before after : PyText) :
    letters (sides before after).1 = letters before ∧
      letters (sides before after).2 = letters after := by
  rw [sides]
  split_ifs with blankAfter blankBefore
  · exact ⟨letters_trimBack before, (blank_iff.mp blankAfter).symm⟩
  · exact ⟨(blank_iff.mp blankBefore).symm, letters_trimFront after⟩
  · exact ⟨rfl, rfl⟩

theorem trim_sides (front before after : PyText) :
    trim (front ++ (sides before after).1) = trim (front ++ before) := by
  rw [sides]
  split_ifs with blankAfter blankBefore
  · exact trim_trimBack front before
  · rw [List.append_nil, trim_append_of_blank front blankBefore]
  · rfl

theorem trimFront_trimFront (text back : PyText) :
    trimFront (trimFront text ++ back) = trimFront (text ++ back) := by
  by_cases blank : Blank text
  · rw [trimFront_of_blank blank, trimFront_append_of_blank blank]
    rfl
  · have stays : trimFront (trimFront text) = trimFront text :=
      trimFront_eq_self (head?_trimFront text)
    have some_ : ¬ Blank (trimFront text) := by
      rw [blank_iff, letters_trimFront, ← blank_iff]
      exact blank
    rw [trimFront_append some_, trimFront_append blank, stays]

theorem trimFront_sides (before after back : PyText) :
    trimFront ((sides before after).2 ++ back) = trimFront (after ++ back) := by
  rw [sides]
  split_ifs with blankAfter blankBefore
  · exact (trimFront_append_of_blank blankAfter back).symm
  · exact trimFront_trimFront after back
  · rfl

end Sides

/-! ### Without a third tag -/

section Rebuilt

variable {front : PyText} {begun before after reasoning inside hidden : PyText}
  {behind seen : List PyText}

/-- Letters that are not at the place they belong to are missing there. -/
theorem blank_of_rebuilt {content : PyText} (isSeen : Seen behind seen hidden)
    (shows : content = front ++ (sides before after).2 ++ seen.flatten)
    (rebuilt : ∃ back, content = front ++ begun ++ back ∧
      trimFront back = trimFront (after ++ behind.flatten)) :
    Blank begun := by
  obtain ⟨back, isContent, same⟩ := rebuilt
  have lettersBack : letters back =
      letters after ++ letters seen.flatten ++ letters (behindQuote behind).flatten := by
    rw [← letters_trimFront back, same, letters_trimFront, letters_append, isSeen.flatten,
      letters_append, List.append_assoc]
  have sizes := congrArg (fun text => (letters text).length) (shows.symm.trans isContent)
  simp only [letters_append, (letters_sides before after).2, lettersBack,
    List.length_append] at sizes
  rw [blank_iff]
  exact List.eq_nil_of_length_eq_zero (by omega)

/-- **When a message is rebuilt** from what is known of a run. -/
theorem rebuilt_iff (isSeen : Seen behind seen hidden) :
    Rebuilt (front ++ begun) reasoning (after ++ behind.flatten)
        (inside ++ (sides before after).1 ++ hidden,
          front ++ (sides before after).2 ++ seen.flatten) ↔
      Blank begun ∧ begun <+: visible before after behind ∧ (behindQuote behind).flatten = [] ∧
        trim (inside ++ before) = trim reasoning := by
  have whole := isSeen.flatten
  constructor
  · rintro ⟨isReasoning, rebuilt⟩
    have blank := blank_of_rebuilt isSeen rfl rebuilt
    obtain ⟨back, isContent, same⟩ := rebuilt
    have isContent : front ++ (sides before after).2 ++ seen.flatten = front ++ begun ++ back :=
      isContent
    rw [List.append_assoc, List.append_assoc, List.append_right_inj] at isContent
    -- behind a quote there is a letter, and line breaks behind it do not come off
    have closed : (behindQuote behind).flatten = [] := by
      rcases isSeen.mark with isNil | letter
      · rw [isNil]
        rfl
      · have some_ : ¬ Blank (after ++ seen.flatten) := by
          rw [blank_iff, letters_append]
          exact fun empty => by simp [(List.append_eq_nil_iff.mp empty).2] at letter
        have both : trimFront (after ++ seen.flatten) =
            trimFront (after ++ seen.flatten) ++ (behindQuote behind).flatten := by
          calc
            trimFront (after ++ seen.flatten) = trimFront ((sides before after).2 ++ seen.flatten) :=
              (trimFront_sides before after _).symm
            _ = trimFront (after ++ behind.flatten) := by
              rw [isContent, trimFront_append_of_blank blank, same]
            _ = trimFront (after ++ seen.flatten) ++ (behindQuote behind).flatten := by
              rw [whole, ← List.append_assoc, trimFront_append some_]
        exact (List.self_eq_append_right.mp both)
    refine ⟨blank, ⟨back, ?_⟩, closed, ?_⟩
    · rw [visible, whole, closed, List.append_nil, isContent]
    · rw [isSeen.nothing closed, List.append_nil, trim_sides] at isReasoning
      exact isReasoning
  · rintro ⟨blank, ⟨back, isVisible⟩, closed, isReasoning⟩
    rw [visible, whole, closed, List.append_nil] at isVisible
    refine ⟨?_, back, ?_, ?_⟩
    · rw [isSeen.nothing closed, List.append_nil, trim_sides]
      exact isReasoning
    · show front ++ (sides before after).2 ++ seen.flatten = _
      rw [List.append_assoc, List.append_assoc, isVisible]
    · rw [whole, closed, List.append_nil, ← trimFront_sides before, ← isVisible,
        trimFront_append_of_blank blank]

end Rebuilt

/-! ### The contents with the tags -/

section Tagged

variable {front middle behind : List PyText} {begun first before after text : PyText} {flags : Flags}

theorem noThink_endTag (noThink : ¬ thinkTag <:+: before) (noThink' : ¬ thinkTag <:+: after) :
    ¬ thinkTag <:+: before ++ endTag ++ after := by
  intro found
  rw [List.append_assoc] at found
  rcases marked_thinkTag.infix_append found with inside | inside
  · exact noThink inside
  · rcases List.infix_cons_iff.mp inside with begins | later
    · exact absurd (List.cons_prefix_cons.mp (List.cons_prefix_cons.mp begins).2).1 (by decide)
    · have noSign : (60 : CodePoint) ∉ Utf8.points "/think>" := by decide
      exact noThink' (marked_thinkTag.infix_of_not_mem noSign later)

theorem noEnd_thinkTag (noEnd : ¬ endTag <:+: before) (noEnd' : ¬ endTag <:+: after) :
    ¬ endTag <:+: before ++ thinkTag ++ after := by
  intro found
  rw [List.append_assoc] at found
  rcases marked_endTag.infix_append found with inside | inside
  · exact noEnd inside
  · rcases List.infix_cons_iff.mp inside with begins | later
    · exact absurd (List.cons_prefix_cons.mp (List.cons_prefix_cons.mp begins).2).1 (by decide)
    · have noSign : (60 : CodePoint) ∉ Utf8.points "think>" := by decide
      exact noEnd' (marked_endTag.infix_of_not_mem noSign later)

theorem separate_open (noThink : ¬ thinkTag <:+: begun) (noThink' : ¬ thinkTag <:+: first) :
    separate flags (begun ++ thinkTag ++ first) =
      separateBehind (insideFlags flags.sending) (begun ++ first) := by
  have found : thinkTag <:+: begun ++ thinkTag ++ first := ⟨begun, first, rfl⟩
  have removed : replaced "<think>" "" (begun ++ thinkTag ++ first) = begun ++ first := by
    show PyText.remove thinkTag _ = _
    rw [marked_thinkTag.remove_append noThink, PyText.remove_of_absent noThink']
  rw [separate, if_pos (has_thinkTag.mpr found), removed]
  rfl

theorem separateBehind_close (found : endTag <:+: text) :
    separateBehind flags text = ({ flags with thinking := false }, endThink text) := by
  rw [separateBehind, if_pos (has_endTag.mpr found)]

/-- **From `</think>` on**, in the content that `step` is about. -/
theorem runs_closed
    (step : ∃ sending, separate flags text = (⟨false, sending, true⟩, sides before after))
    (noTags : ∀ words ∈ behind, NoTags words) : ∃ last seen hidden,
      Runs flags (text :: behind) last ((sides before after).1 ++ hidden)
        ((sides before after).2 ++ seen.flatten) ∧
        Seen behind seen hidden := by
  obtain ⟨sending, step⟩ := step
  obtain ⟨last, seen, hidden, run, isSeen⟩ := runs_behind noTags sending
  exact ⟨last, seen, hidden, .cons step run, isSeen⟩

/-- From `<think>` up to `</think>`. -/
theorem runs_opened (noThink : ¬ thinkTag <:+: begun) (noThink' : ¬ thinkTag <:+: first)
    (noEnd : ¬ endTag <:+: begun ++ first) (noTags : ∀ words ∈ middle, NoTags words) :
    ∃ sending, Runs {} ((begun ++ thinkTag ++ first) :: middle) (insideFlags sending)
      (squeezeFirst ((begun ++ first) :: middle)) [] := by
  refine runs_begun noTags ?_ (runs_thinking noTags)
  rw [separate_open noThink noThink', separateBehind_inside noEnd]
  rfl

end Tagged

/-- What is known of the parts of a message, cut with `<think>` and `</think>` in two contents. -/
structure CutApart (front middle behind : List PyText) (begun first before after : PyText) :
  Prop where
  front : ∀ words ∈ front, NoTags words
  middle : ∀ words ∈ middle, NoTags words
  behind : ∀ words ∈ behind, NoTags words
  begun : NoTags begun
  first : NoTags first
  before : NoTags before
  after : NoTags after

section Apart

variable {front middle behind : List PyText} {begun first before after : PyText}

theorem CutApart.of_noTags (shown : NoTags (front.flatten ++ begun))
    (reasoning : NoTags (first ++ middle.flatten ++ before))
    (content : NoTags (after ++ behind.flatten)) :
    CutApart front middle behind begun first before after where
  front := fun _ among => noTags_of_mem shown.left among
  middle := fun _ among => noTags_of_mem reasoning.left.right among
  behind := fun _ among => noTags_of_mem content.right among
  begun := shown.right
  first := reasoning.left.left
  before := reasoning.right
  after := content.left

theorem CutApart.together (shown : NoTags (front.flatten ++ begun)) (reasoning : NoTags first)
    (content : NoTags (after ++ behind.flatten)) :
    CutApart front [] behind begun first [] after := by
  refine .of_noTags shown ?_ content
  rw [List.flatten_nil, List.append_nil, List.append_nil]
  exact reasoning

theorem runs_apart (cut : CutApart front middle behind begun first before after)
    (unquoted : Unquoted front)
    (noEnd : ¬ endTag <:+: begun ++ first) : ∃ last seen hidden,
      Runs {} (front ++ (begun ++ thinkTag ++ first) ::
        (middle ++ (before ++ endTag ++ after) :: behind)) last
        (squeezeFirst ((begun ++ first) :: middle) ++ (sides before after).1 ++ hidden)
        (front.flatten ++ (sides before after).2 ++ seen.flatten) ∧ Seen behind seen hidden := by
  obtain ⟨sending, opened⟩ := runs_opened cut.begun.noThink cut.first.noThink noEnd cut.middle
  have noThink := noThink_endTag cut.before.noThink cut.after.noThink
  have step : separate (insideFlags sending) (before ++ endTag ++ after)
      = (⟨false, sending, true⟩, sides before after) := by
    rw [separate, if_neg (mt has_thinkTag.mp noThink), separateBehind_close ⟨before, after, rfl⟩,
      endThink_sides cut.before.noEnd cut.after.noEnd]
    rfl
  obtain ⟨last, seen, hidden, closed, isSeen⟩ := runs_closed ⟨sending, step⟩ cut.behind
  refine ⟨last, seen, hidden, ?_, isSeen⟩
  have whole := (runs_front cut.front unquoted).append (opened.append closed)
  rw [List.nil_append, List.nil_append, ← List.append_assoc (squeezeFirst _),
    ← List.append_assoc front.flatten] at whole
  exact whole

/-- **With the tags in two contents** a message is rebuilt when they do no harm. -/
theorem rebuilt_apart_iff (cut : CutApart front middle behind begun first before after)
    (unquoted : Unquoted front)
    (noEnd : ¬ endTag <:+: begun ++ first) :
    Rebuilt (front.flatten ++ begun) (first ++ middle.flatten ++ before) (after ++ behind.flatten)
        (separateAll {} (front ++ (begun ++ thinkTag ++ first) ::
          (middle ++ (before ++ endTag ++ after) :: behind))) ↔
      Harmless front begun before after behind ∧ KeepsLines before ((begun ++ first) :: middle) := by
  obtain ⟨last, seen, hidden, run, isSeen⟩ := runs_apart cut unquoted noEnd
  rw [run.sends, rebuilt_iff isSeen]
  have lines (blank : Blank begun) :
      trim (squeezeFirst ((begun ++ first) :: middle) ++ before) = trim
        (first ++ middle.flatten ++ before) ↔
        KeepsLines before ((begun ++ first) :: middle) := by
    rw [← keepsLines_iff, List.flatten_cons, List.append_assoc begun, List.append_assoc begun,
      trim_of_blank_append blank]
  constructor
  · rintro ⟨blank, shown, closed, isReasoning⟩
    exact ⟨⟨unquoted, blank, shown, closed⟩, (lines blank).mp isReasoning⟩
  · rintro ⟨harmless, keeps⟩
    exact ⟨harmless.blank, harmless.shown, harmless.closed, (lines harmless.blank).mpr keeps⟩

/-- **With the tags in one content** a message is rebuilt when they do no harm. -/
theorem rebuilt_together_iff (cut : CutApart front [] behind begun first [] after)
    (unquoted : Unquoted front)
    (noEnd : ¬ endTag <:+: begun ++ first) :
    Rebuilt (front.flatten ++ begun) first (after ++ behind.flatten)
        (separateAll {} (front ++ (begun ++ thinkTag ++ (first ++ endTag ++ after)) :: behind)) ↔
      Harmless front begun (begun ++ first) after behind := by
  have noThink := noThink_endTag cut.first.noThink cut.after.noThink
  have step : separate {} (begun ++ thinkTag ++ (first ++ endTag ++ after))
      = (⟨false, false, true⟩, sides (begun ++ first) after) := by
    rw [separate_open cut.begun.noThink noThink, ← List.append_assoc, ← List.append_assoc,
      separateBehind_close ⟨begun ++ first, after, rfl⟩, endThink_sides noEnd cut.after.noEnd]
    rfl
  obtain ⟨last, seen, hidden, closed, isSeen⟩ := runs_closed ⟨false, step⟩ cut.behind
  have run := (runs_front cut.front unquoted).append closed
  rw [List.nil_append, ← List.append_assoc front.flatten] at run
  rw [run.sends]
  have same := @rebuilt_iff front.flatten begun (begun ++ first) after first
      [] hidden behind seen isSeen
  rw [List.nil_append, List.nil_append] at same
  rw [same]
  constructor
  · rintro ⟨blank, shown, closed, -⟩
    exact ⟨unquoted, blank, shown, closed⟩
  · intro harmless
    exact ⟨harmless.blank, harmless.shown, harmless.closed,
      trim_of_blank_append harmless.blank first⟩

end Apart

end UniApi.Providers.OpenaiStream
