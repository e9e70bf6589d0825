/-
**Frames whose length stands in them, read from a stream in chunks.**

What a framer says of the symbols it has does not change when more of them come, except that it may have
been waiting for these. Draining takes frames off the front until the framer waits or refuses.

* `drain_append`: what more symbols add to a drained input;
* `feed_eq`: however a stream is cut, the frames and the end are those of the whole;
* `drain_frames`: of frames in a row that the framer reads, those frames.
-/

import Mathlib.Data.List.Basic

namespace UniApi.Lib

/-- What a framer says of an input: it waits for more, refuses it, or reads a frame of some length. -/
inductive Verdict (ε β : Type) where
  | wait
  | refuse (error : ε)
  | frame (value : β) (length : ℕ)

/-- A framer, which more symbols do not confuse. -/
structure Framer (α ε β : Type) where
  next : List α → Verdict ε β
  bounded : ∀ {input value length}, next input = .frame value length → 0 < length ∧ length ≤ input.length
  refuse_append : ∀ {input error} (more : List α), next input = .refuse error → next
    (input ++ more) = .refuse error
  frame_append : ∀ {input value length} (more : List α), next input = .frame value length →
    next (input ++ more) = .frame value length

namespace Framer

variable {α ε β : Type} (framer : Framer α ε β)

/-! ### Draining -/

/-- At most so many frames are taken off an input. -/
def drainFuel : ℕ → List α → List β × Except ε (List α)
  | 0, input => ([], .ok input)
  | fuel + 1, input =>
    match framer.next input with
    | .wait => ([], .ok input)
    | .refuse error => ([], .error error)
    | .frame value length =>
      let later := drainFuel fuel (input.drop length)
      (value :: later.1, later.2)

/-- **The frames of an input**, and what is left of it, or why it is refused. -/
def drain (input : List α) : List β × Except ε (List α) := framer.drainFuel (input.length + 1) input

variable {framer} {input more rest : List α} {value : β} {length : ℕ} {error : ε}

/-- More steps than symbols are enough. -/
theorem drainFuel_enough : (fuel other : ℕ) → (input : List α) → input.length < fuel →
    input.length < other →
    framer.drainFuel fuel input = framer.drainFuel other input
  | fuel + 1, other + 1, input, enough, alsoEnough => by
    rw [drainFuel, drainFuel]
    cases said : framer.next input with
    | wait => rfl
    | refuse error => rfl
    | frame value length =>
      obtain ⟨positive, bounded⟩ := framer.bounded said
      have shorter : (input.drop length).length < fuel ∧ (input.drop length).length < other := by
        rw [List.length_drop]
        omega
      dsimp only
      rw [drainFuel_enough fuel other _ shorter.1 shorter.2]

theorem drain_wait (said : framer.next input = .wait) : framer.drain input = ([], .ok input) := by
  rw [drain, drainFuel, said]

theorem drain_refuse (said : framer.next input = .refuse error) : framer.drain input =
    ([], .error error) := by
  rw [drain, drainFuel, said]

theorem drain_frame (said : framer.next input = .frame value length) : framer.drain input =
    (value :: (framer.drain (input.drop length)).1, (framer.drain (input.drop length)).2) := by
  obtain ⟨positive, bounded⟩ := framer.bounded said
  have shorter : (input.drop length).length < input.length := by
    rw [List.length_drop]
    omega
  rw [drain, drainFuel, said]
  dsimp only
  rw [drainFuel_enough input.length _ (input.drop length) shorter (Nat.lt_succ_self _)]
  rfl

/-- **Induction on what the framer says**, frame by frame. -/
theorem drain_induct {motive : List α → Prop} (wait : ∀ input, framer.next input = .wait → motive input)
    (refuse : ∀ input error, framer.next input = .refuse error → motive input)
    (frame : ∀ input value length, framer.next input = .frame value length → motive (input.drop length) →
      motive input) (input : List α) : motive input := by
  induction size : input.length using Nat.strongRecOn generalizing input with
  | ind size ih =>
    subst size
    cases said : framer.next input with
    | wait => exact wait input said
    | refuse error => exact refuse input error said
    | frame value length =>
      obtain ⟨positive, bounded⟩ := framer.bounded said
      refine frame input value length said (ih _ ?_ _ rfl)
      rw [List.length_drop]
      omega

/-- What is left of an input makes the framer wait. -/
theorem next_of_drain (input : List α) : ∀ {values rest}, framer.drain input = (values, .ok rest) →
    framer.next rest = .wait := by
  induction input using @drain_induct _ _ _ framer with
  | wait input said =>
    intro values rest drained
    rw [drain_wait said] at drained
    cases drained
    exact said
  | refuse input error said =>
    intro values rest drained
    rw [drain_refuse said] at drained
    cases drained
  | frame input value length said ih =>
    intro values rest drained
    rw [drain_frame said] at drained
    exact ih (Prod.ext rfl (Prod.mk.inj drained).2)

/-- **More symbols**: what the drained input left goes on, and a refusal stays. -/
theorem drain_append (more : List α) (input : List α) : framer.drain (input ++ more) =
    match framer.drain input with
    | (values, .ok rest) => (values ++ (framer.drain (rest ++ more)).1, (framer.drain (rest ++ more)).2)
    | (values, .error error) => (values, .error error) := by
  induction input using @drain_induct _ _ _ framer with
  | wait input said =>
    rw [drain_wait said]
    rfl
  | refuse input error said =>
    rw [drain_refuse said, drain_refuse (framer.refuse_append more said)]
  | frame input value length said ih =>
    have inside := (framer.bounded said).2
    rw [drain_frame said, drain_frame (framer.frame_append more said),
      List.drop_append_of_le_length inside, ih]
    rcases framer.drain (input.drop length) with ⟨values, rest | error⟩ <;> rfl

/-! ### Chunks -/

/-- Chunks one after the other, drained each time, from what is held. -/
def feed (framer : Framer α ε β) (held : List α) : List (List α) → List β × Except ε (List α)
  | [] => ([], .ok held)
  | chunk :: chunks =>
    match framer.drain (held ++ chunk) with
    | (values, .ok rest) => (values ++ (framer.feed rest chunks).1, (framer.feed rest chunks).2)
    | (values, .error error) => (values, .error error)

/-- **However a stream is cut**, the frames and the end are those of the whole. -/
theorem feed_eq : (chunks : List (List α)) → {held : List α} → framer.next held = .wait →
    framer.feed held chunks = framer.drain (held ++ chunks.flatten)
  | [], held, waits => by
    rw [feed, List.flatten_nil, List.append_nil, drain_wait waits]
  | chunk :: chunks, held, waits => by
    rw [feed, List.flatten_cons, ← List.append_assoc, drain_append chunks.flatten (held ++ chunk)]
    cases drained : framer.drain (held ++ chunk) with
    | mk values outcome =>
      cases outcome with
      | error error => rfl
      | ok rest =>
        dsimp only
        rw [feed_eq chunks (next_of_drain _ drained)]

/-! ### Frames in a row -/

/-- **Frames in a row**, each of which the framer reads, and what stands behind them. -/
theorem drain_frames {γ : Type} {wire : γ → List α} {valueOf : γ → β} (behind : List α) :
    (frames : List γ) →
    (∀ frame ∈ frames, framer.next (wire frame) = .frame (valueOf frame) (wire frame).length) →
    framer.drain (frames.flatMap wire ++ behind) =
      (frames.map valueOf ++ (framer.drain behind).1, (framer.drain behind).2)
  | [], _ => rfl
  | frame :: frames, reads => by
    have here := framer.frame_append (frames.flatMap wire ++ behind) (reads frame List.mem_cons_self)
    have later := drain_frames behind frames fun other among => reads other (List.mem_cons_of_mem _ among)
    rw [List.flatMap_cons, List.append_assoc, drain_frame here, List.drop_left, later]
    rfl

end Framer

end UniApi.Lib
