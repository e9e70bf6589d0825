/-
**The scanner, byte by byte.**

* `scan_eq_feedBytes`: the scanner with its skips does what an automaton does byte by byte;
* `next`, `nexts`: what a byte does, with no limits;
* `feedBytes_cases`: the automaton raises exactly where a state leaves the limits;
* `feeds_cases`: whether some chunk raises depends only on the bytes, and not on the cuts.
-/

import UniApi.Admission.JsonMemory

namespace UniApi.Admission.JsonMemory

open UniApi.Lib

theorem search_none {special : UInt8 → Bool} {rest : Bytes} (nothing : search special rest = none) :
    ∀ byte ∈ rest, special byte = false := by
  induction rest with
  | nil => exact nofun
  | cons head rest ih =>
    unfold search at nothing
    split at nothing
    · cases nothing
    · rename_i plain
      exact List.forall_mem_cons.mpr ⟨Bool.eq_false_iff.mpr plain, ih (Option.map_eq_none_iff.mp
        nothing)⟩

/-! ### Byte by byte -/

section Bytes

variable (limits : Limits)

/-- One byte. -/
def stepByte (byte : UInt8) : Call := fun state =>
  if state.inString then
    if state.escaped then (.ok (), { state with escaped := false })
    else if byte = 0x5C then (.ok (), { state with escaped := true })
    else if byte = 0x22 then (.ok (), { state with inString := false })
    else (.ok (), state)
  else if isOutsideSpecial byte then structural limits byte state
  else chargeScalar limits 1 state

/-- The bytes one after the other. -/
def feedBytes : Bytes → Call
  | [] => pure ()
  | byte :: rest => do
    stepByte limits byte
    feedBytes rest

variable {limits}

theorem feedBytes_append (first second : Bytes) (state : ScanState) :
    feedBytes limits (first ++ second) state =
      (feedBytes limits first >>= fun _ => feedBytes limits second) state := by
  induction first generalizing state with
  | nil => rfl
  | cons byte rest ih =>
    simp only [List.cons_append, feedBytes, Raise.bind_apply] at ih ⊢
    rcases stepByte limits byte state with ⟨_ | _, after⟩
    · rfl
    · exact ih after

theorem feedBytes_string {run : Bytes} {state : ScanState} (inside : state.inString = true)
    (bare : state.escaped = false) (plain : ∀ byte ∈ run, isStringSpecial byte = false) :
    feedBytes limits run state = (.ok (), state) := by
  induction run with
  | nil => rfl
  | cons byte rest ih =>
    have here := plain byte List.mem_cons_self
    simp only [isStringSpecial, Bool.or_eq_false_iff, beq_eq_false_iff_ne] at here
    have still : stepByte limits byte state = (.ok (), state) := by
      simp [stepByte, inside, bare, here.1, here.2]
    simp only [feedBytes, Raise.bind_apply, still]
    exact ih fun other there => plain other (List.mem_cons_of_mem _ there)

theorem startScalar_active {state after : ScanState}
    (started : startScalar limits state = (.ok (), after)) :
    after.scalarActive = true := by
  unfold startScalar at started
  split at started
  · rename_i active
    cases started
    exact active
  · unfold countToken at started
    dsimp only at started
    split at started
    · cases started
    · cases started
      rfl

theorem chargeScalar_inString {length : Nat} {state after : ScanState}
    (charged : chargeScalar limits length state = (.ok (), after)) :
    after.inString = state.inString := by
  unfold chargeScalar at charged
  split at charged
  · cases charged
    rfl
  obtain ⟨⟨⟩, between, started, grown⟩ := Raise.bind_ok.mp charged
  have same : between.inString = state.inString := by
    unfold startScalar countToken at started
    split at started
    · cases started
      rfl
    · dsimp only at started
      split at started
      · cases started
      · cases started
        rfl
  unfold growScalar at grown
  split at grown
  · cases grown
  · cases grown
    exact same

theorem chargeScalar_of_active {state : ScanState} (active : state.scalarActive = true)
    {length : Nat}
    (some_ : length ≠ 0) : chargeScalar limits length state = growScalar limits length state := by
  rw [chargeScalar, if_neg some_, Raise.bind_apply, startScalar, if_pos active]

/-- A scalar may grow in pieces: if a piece is too long, so is the whole. -/
theorem growScalar_add (first second : Nat) (state : ScanState) :
    growScalar limits (first + second) state =
      (growScalar limits first >>= fun _ => growScalar limits second) state := by
  rw [Raise.bind_apply, growScalar, growScalar]
  by_cases early : limits.maxScalarBytes < state.scalarBytes + first
  · rw [if_pos early, if_pos (by omega)]
    rfl
  · rw [if_neg early, ← Nat.add_assoc]
    rfl

theorem growScalar_active {length : Nat} {state after : ScanState}
    (grown : growScalar limits length state = (.ok (), after)) : after.scalarActive
      = state.scalarActive := by
  unfold growScalar at grown
  split at grown
  · cases grown
  · cases grown
    rfl

/-- **A run of scalar bytes** may be charged in pieces. -/
theorem chargeScalar_add (first second : Nat) (state : ScanState) :
    chargeScalar limits (first + second) state =
      (chargeScalar limits first >>= fun _ => chargeScalar limits second) state := by
  rcases Nat.eq_zero_or_pos first with rfl | some_first
  · rw [Nat.zero_add]
    rfl
  rcases Nat.eq_zero_or_pos second with rfl | some_second
  · rw [Nat.add_zero, Raise.bind_apply]
    rcases chargeScalar limits first state with ⟨_ | _, after⟩ <;> rfl
  have whole : chargeScalar limits (first + second) =
      (startScalar limits >>= fun _ => growScalar limits (first + second)) := if_neg (by omega)
  have front : chargeScalar limits first =
      (startScalar limits >>= fun _ => growScalar limits first) := if_neg (by omega)
  rw [whole, front, Raise.bind_apply, Raise.bind_apply, Raise.bind_apply]
  rcases started : startScalar limits state with ⟨_ | _, after⟩
  · rfl
  dsimp only
  rw [growScalar_add, Raise.bind_apply]
  rcases grown : growScalar limits first after with ⟨_ | _, next⟩
  · rfl
  dsimp only
  have active := (growScalar_active grown).trans (startScalar_active started)
  exact (chargeScalar_of_active active (by omega)).symm

theorem feedBytes_scalar {run : Bytes} {state : ScanState} (outside : state.inString = false)
    (plain : ∀ byte ∈ run, isOutsideSpecial byte = false) :
    feedBytes limits run state = chargeScalar limits run.length state := by
  induction run generalizing state with
  | nil => rfl
  | cons byte rest ih =>
    have here : stepByte limits byte state = chargeScalar limits 1 state := by
      rw [stepByte, outside, plain byte List.mem_cons_self]
      rfl
    have kept : ∀ {after : ScanState}, chargeScalar limits 1 state = (.ok (), after) →
        after.inString = false := by
      intro after charged
      exact (chargeScalar_inString charged).trans outside
    rw [feedBytes, Raise.bind_apply, here, List.length_cons, Nat.add_comm, chargeScalar_add,
      Raise.bind_apply]
    rcases charged : chargeScalar limits 1 state with ⟨_ | _, after⟩
    · rfl
    · exact ih (kept charged) fun other there => plain other (List.mem_cons_of_mem _ there)

theorem search_run {special : UInt8 → Bool} {run : Bytes}
    (plain : ∀ byte ∈ run, special byte = false) {value : UInt8} (isSpecial : special value = true) (after : Bytes) :
    search special (run ++ value :: after) = some (run.length, value, after) := by
  induction run with
  | nil => exact if_pos isSpecial
  | cons byte rest ih =>
    have here : ¬ special byte = true := by
      rw [plain byte List.mem_cons_self]
      exact Bool.false_ne_true
    rw [List.cons_append, search, if_neg here, ih fun other there => plain other
      (List.mem_cons_of_mem _ there)]
    rfl

theorem search_plain {special : UInt8 → Bool} {rest : Bytes}
    (plain : ∀ byte ∈ rest, special byte = false) :
    search special rest = none := by
  induction rest with
  | nil => rfl
  | cons byte rest ih =>
    have here : ¬ special byte = true := by
      rw [plain byte List.mem_cons_self]
      exact Bool.false_ne_true
    rw [search, if_neg here, ih fun other there => plain other (List.mem_cons_of_mem _ there)]
    rfl

section Steps

variable {state : ScanState} {run : Bytes}

theorem scan_escaped (inside : state.inString = true) (escaped : state.escaped = true)
    (byte : UInt8)
    (rest : Bytes) : scan limits (byte :: rest) state = scan limits rest
      { state with escaped := false } := by
  rw [scan, if_neg (by simp), if_pos inside, if_pos escaped]
  rfl

theorem scan_string (inside : state.inString = true) (bare : state.escaped = false)
    (plain : ∀ byte ∈ run, isStringSpecial byte = false) :
    scan limits run state = (.ok (), state) := by
  rcases run with _ | ⟨byte, rest⟩
  · exact scan_nil
  rw [scan, if_neg (by simp), if_pos inside, if_neg (by rw [bare]; exact Bool.false_ne_true)]
  split
  · rfl
  · rename_i found
    rw [search_plain plain] at found
    cases found

theorem scan_quote (inside : state.inString = true) (bare : state.escaped = false)
    (plain : ∀ byte ∈ run, isStringSpecial byte = false) (after : Bytes) :
    scan limits (run ++ 0x22 :: after) state = scan limits after { state with inString := false
      } := by
  rw [scan, if_neg (by simp), if_pos inside, if_neg (by rw [bare]; exact Bool.false_ne_true)]
  split
  · rename_i found
    rw [search_run plain (by decide)] at found
    cases found
  · rename_i found
    rw [search_run plain (by decide)] at found
    cases found
    exact if_neg (by decide)

theorem scan_backslash (inside : state.inString = true) (bare : state.escaped = false)
    (plain : ∀ byte ∈ run, isStringSpecial byte = false) (byte : UInt8) (behind : Bytes) :
    scan limits (run ++ 0x5C :: byte :: behind) state = scan limits behind state := by
  rw [scan, if_neg (by simp), if_pos inside, if_neg (by rw [bare]; exact Bool.false_ne_true)]
  split
  · rename_i found
    rw [search_run plain (by decide)] at found
    cases found
  · rename_i found
    rw [search_run plain (by decide)] at found
    cases found
    exact if_pos rfl

theorem scan_backslash_end (inside : state.inString = true) (bare : state.escaped = false)
    (plain : ∀ byte ∈ run, isStringSpecial byte = false) :
    scan limits (run ++ [0x5C]) state = (.ok (), { state with escaped := true }) := by
  rw [scan, if_neg (by simp), if_pos inside, if_neg (by rw [bare]; exact Bool.false_ne_true)]
  split
  · rename_i found
    rw [search_run plain (by decide)] at found
    cases found
  · rename_i found
    rw [search_run plain (by decide)] at found
    cases found
    exact if_pos rfl

theorem scan_scalar (outside : state.inString = false)
    (plain : ∀ byte ∈ run, isOutsideSpecial byte = false) :
    scan limits run state = chargeScalar limits run.length state := by
  rcases run with _ | ⟨byte, rest⟩
  · exact scan_nil
  rw [scan, if_neg (by simp), if_neg (by rw [outside]; exact Bool.false_ne_true)]
  split
  · rfl
  · rename_i found
    rw [search_plain plain] at found
    cases found

theorem scan_run (outside : state.inString = false)
    (plain : ∀ byte ∈ run, isOutsideSpecial byte = false) {value : UInt8}
    (isSpecial : isOutsideSpecial value = true) (after : Bytes) :
    scan limits (run ++ value :: after) state =
      (do
        chargeScalar limits run.length
        structural limits value
        scan limits after) state := by
  rw [scan, if_neg (by simp), if_neg (by rw [outside]; exact Bool.false_ne_true), Raise.bind_apply]
  split
  · rename_i found
    rw [search_run plain isSpecial] at found
    cases found
  · rename_i found
    rw [search_run plain isSpecial] at found
    cases found
    rcases chargeScalar limits run.length state with ⟨_ | _, between⟩
    · rfl
    dsimp only
    rw [Raise.bind_apply]
    rcases structural limits value between with ⟨_ | _, next⟩ <;> rfl

end Steps

/-- **The scanner with its skips** does what the automaton does byte by byte. -/
theorem scan_eq_feedBytes (size : Nat) (rest : Bytes) (short : rest.length ≤ size)
    (state : ScanState) :
    scan limits rest state = feedBytes limits rest state := by
  induction size generalizing rest state with
  | zero =>
    rw [List.length_eq_zero_iff.mp (Nat.le_zero.mp short)]
    exact scan_nil
  | succ size ih =>
    cases inside : state.inString with
    | false =>
      cases found : search isOutsideSpecial rest with
      | none =>
        have plain := search_none found
        rw [scan_scalar inside plain, feedBytes_scalar inside plain]
      | some place =>
        obtain ⟨distance, value, after⟩ := place
        obtain ⟨run, rfl, rfl, plain, isSpecial⟩ := search_some found
        rw [scan_run inside plain isSpecial, feedBytes_append, Raise.bind_apply, Raise.bind_apply,
          feedBytes_scalar inside plain]
        rcases charged : chargeScalar limits run.length state with ⟨_ | _, between⟩
        · rfl
        dsimp only
        have outside := (chargeScalar_inString charged).trans inside
        have here : stepByte limits value between = structural limits value between := by
          rw [stepByte, outside, isSpecial]
          rfl
        rw [feedBytes, Raise.bind_apply, Raise.bind_apply, here]
        rcases structural limits value between with ⟨_ | _, next⟩
        · rfl
        · refine ih after ?_ next
          rw [List.length_append, List.length_cons] at short
          omega
    | true =>
      cases escaped : state.escaped with
      | true =>
        cases rest with
        | nil => exact scan_nil
        | cons byte rest =>
          have here : stepByte limits byte state = (.ok (), { state with escaped := false }) := by
            rw [stepByte, inside, escaped]
            rfl
          rw [scan_escaped inside escaped, feedBytes, Raise.bind_apply, here]
          exact ih rest (Nat.le_of_succ_le_succ short) _
      | false =>
        cases found : search isStringSpecial rest with
        | none =>
          have plain := search_none found
          rw [scan_string inside escaped plain, feedBytes_string inside escaped plain]
        | some place =>
          obtain ⟨distance, value, after⟩ := place
          obtain ⟨run, rfl, rfl, plain, isSpecial⟩ := search_some found
          rw [List.length_append, List.length_cons] at short
          rw [feedBytes_append, Raise.bind_apply, feedBytes_string inside escaped plain]
          dsimp only
          rw [feedBytes, Raise.bind_apply]
          have either : value = 0x22 ∨ value = 0x5C := by
            simpa [isStringSpecial] using isSpecial
          rcases either with rfl | rfl
          · have here : stepByte limits 0x22 state = (.ok (), { state with inString := false
              }) := by
              rw [stepByte, inside, escaped]
              rfl
            rw [scan_quote inside escaped plain, here]
            exact ih after (by omega) _
          · have here : stepByte limits 0x5C state = (.ok (), { state with escaped := true }) := by
              rw [stepByte, inside, escaped]
              rfl
            rw [here]
            cases after with
            | nil => exact scan_backslash_end inside escaped plain
            | cons byte behind =>
              rw [scan_backslash inside escaped plain]
              have next : stepByte limits byte { state with escaped := true } =
                (.ok (), state) := by
                rw [stepByte, if_pos inside, if_pos rfl]
                exact congrArg (Prod.mk _) (by rw [← escaped])
              dsimp only
              rw [feedBytes, Raise.bind_apply, next]
              rw [List.length_cons] at short
              exact ih behind (by omega) _

end Bytes

/-! ### Without limits -/

/-- A byte, with no limits. -/
def next (byte : UInt8) (state : ScanState) : ScanState :=
  if state.inString then
    if state.escaped then { state with escaped := false }
    else if byte = 0x5C then { state with escaped := true }
    else if byte = 0x22 then { state with inString := false }
    else state
  else if isOutsideSpecial byte then
    if byte = 0x22 then { state.finishScalar with tokens := state.tokens + 1, inString := true }
    else if byte = 0x7B ∨ byte = 0x5B then
      { state.finishScalar with
        tokens := state.tokens + 1
        depth := state.depth + 1
        peakDepth := max state.peakDepth (state.depth + 1) }
    else if byte = 0x7D ∨ byte = 0x5D then { state.finishScalar with depth := state.depth - 1 }
    else state.finishScalar
  else if state.scalarActive then { state with scalarBytes := state.scalarBytes + 1 }
  else { state with tokens := state.tokens + 1, scalarActive := true, scalarBytes := 1 }

/-- The bytes one after the other, with no limits. -/
def nexts (bytes : Bytes) (state : ScanState) : ScanState :=
  bytes.foldl (fun state byte => next byte state) state

@[simp] theorem nexts_nil (state : ScanState) : nexts [] state = state := rfl

@[simp] theorem nexts_cons (byte : UInt8) (rest : Bytes) (state : ScanState) :
    nexts (byte :: rest) state = nexts rest (next byte state) := rfl

theorem nexts_append (first second : Bytes) (state : ScanState) :
    nexts (first ++ second) state = nexts second (nexts first state) := List.foldl_append

/-- A byte leaves the raw bytes alone, and does not look at them. -/
theorem next_raw (byte : UInt8) (state : ScanState) (rawBytes : Nat) :
    next byte { state with rawBytes := rawBytes } = { next byte state with rawBytes := rawBytes
      } := by
  unfold next
  simp only [ScanState.finishScalar]
  split_ifs <;> rfl

theorem nexts_raw (bytes : Bytes) (state : ScanState) (rawBytes : Nat) :
    nexts bytes { state with rawBytes := rawBytes } =
      { nexts bytes state with rawBytes := rawBytes } := by
  induction bytes generalizing state with
  | nil => rfl
  | cons byte rest ih => rw [nexts_cons, next_raw, ih, nexts_cons]

theorem tokens_le_next (byte : UInt8) (state : ScanState) : state.tokens ≤
    (next byte state).tokens := by
  unfold next
  split_ifs <;> first | exact Nat.le_refl _ | exact Nat.le_succ _

theorem tokens_le_nexts (bytes : Bytes) (state : ScanState) : state.tokens ≤
    (nexts bytes state).tokens := by
  induction bytes generalizing state with
  | nil => exact Nat.le_refl _
  | cons byte rest ih => exact (tokens_le_next byte state).trans (ih (next byte state))

/-! ### With limits -/

/-- The limits that do not depend on the size of the document. -/
structure Shallow (limits : Limits) (state : ScanState) : Prop where
  depth : state.depth ≤ limits.maxDepth
  scalar : state.scalarBytes ≤ limits.maxScalarBytes

/-- **A state within the limits.** -/
structure Within (limits : Limits) (state : ScanState) : Prop where
  shallow : Shallow limits state
  estimate : state.estimatedBytes limits ≤ limits.maxEstimatedBytes

variable {limits : Limits}

theorem Within.of_eq {state other : ScanState} (within : Within limits state)
    (tokens : other.tokens = state.tokens) (rawBytes : other.rawBytes = state.rawBytes)
    (depth : other.depth ≤ state.depth) (scalar : other.scalarBytes ≤ state.scalarBytes) :
    Within limits other := by
  refine ⟨⟨depth.trans within.shallow.depth, scalar.trans within.shallow.scalar⟩, ?_⟩
  rw [ScanState.estimatedBytes, tokens, rawBytes]
  exact within.estimate

theorem countToken_cases (limits : Limits) (state : ScanState) :
    (({ state with tokens := state.tokens + 1 } : ScanState).estimatedBytes limits ≤
        limits.maxEstimatedBytes ∧
      countToken limits state = (.ok (), { state with tokens := state.tokens + 1 })) ∨
    (limits.maxEstimatedBytes <
        ({ state with tokens := state.tokens + 1 } : ScanState).estimatedBytes limits ∧
      ∃ error after, countToken limits state = (.error error, after)) := by
  rcases Nat.lt_or_ge limits.maxEstimatedBytes
    (({ state with tokens := state.tokens + 1 } : ScanState).estimatedBytes limits) with beyond |
      fits
  · exact .inr ⟨beyond, _, _, if_pos beyond⟩
  · exact .inl ⟨fits, if_neg (Nat.not_lt_of_ge fits)⟩

variable {state : ScanState}

/-- **A byte of structure** does what it does without limits, or leaves them and raises. -/
theorem structural_cases {byte : UInt8} (start : Within limits state)
    (outside : state.inString = false) (isSpecial : isOutsideSpecial byte = true) :
    (Within limits (next byte state) ∧ structural limits byte state = (.ok (), next byte state)) ∨
      (¬ Within limits (next byte state) ∧
        ∃ error after, structural limits byte state = (.error error, after)) := by
  have sameNext : next byte state =
      if byte = 0x22 then { state.finishScalar with tokens := state.tokens + 1, inString := true }
      else if byte = 0x7B ∨ byte = 0x5B then
        { state.finishScalar with
          tokens := state.tokens + 1
          depth := state.depth + 1
          peakDepth := max state.peakDepth (state.depth + 1) }
      else if byte = 0x7D ∨ byte = 0x5D then { state.finishScalar with depth := state.depth - 1 }
      else state.finishScalar := by
    rw [next, outside, isSpecial]
    rfl
  rw [sameNext]
  by_cases quote : byte = 0x22
  · simp only [structural, if_pos quote]
    rcases countToken_cases limits state.finishScalar with ⟨fits, counted⟩ | ⟨beyond, _, _, raised⟩
    · rw [counted]
      exact .inl ⟨⟨⟨start.shallow.depth, Nat.zero_le _⟩, fits⟩, rfl⟩
    · rw [raised]
      exact .inr ⟨fun within => absurd within.estimate (Nat.not_le_of_gt beyond), _, _, rfl⟩
  by_cases opens : byte = 0x7B ∨ byte = 0x5B
  · simp only [structural, if_neg quote, if_pos opens]
    rcases countToken_cases limits state.finishScalar with ⟨fits, counted⟩ | ⟨beyond, _, _, raised⟩
    · rw [counted]
      dsimp only
      by_cases deep : limits.maxDepth < state.depth + 1
      · refine .inr ⟨fun within => absurd within.shallow.depth (Nat.not_le_of_gt deep), ?_⟩
        exact ⟨_, _, if_pos deep⟩
      · refine .inl ⟨⟨⟨Nat.le_of_not_gt deep, Nat.zero_le _⟩, fits⟩, ?_⟩
        exact if_neg deep
    · rw [raised]
      exact .inr ⟨fun within => absurd within.estimate (Nat.not_le_of_gt beyond), _, _, rfl⟩
  by_cases closes : byte = 0x7D ∨ byte = 0x5D
  · refine .inl ⟨?_, by simp only [structural, if_neg quote, if_neg opens, if_pos closes]⟩
    rw [if_neg quote, if_neg opens, if_pos closes]
    exact start.of_eq rfl rfl (Nat.sub_le _ _) (Nat.zero_le _)
  · refine .inl ⟨?_, by simp only [structural, if_neg quote, if_neg opens, if_neg closes]⟩
    rw [if_neg quote, if_neg opens, if_neg closes]
    exact start.of_eq rfl rfl (Nat.le_refl _) (Nat.zero_le _)

/-- **A scalar byte** does what it does without limits, or leaves them and raises. -/
theorem scalar_cases {byte : UInt8} (start : Within limits state)
    (outside : state.inString = false) (plain : isOutsideSpecial byte = false) :
    (Within limits (next byte state) ∧ chargeScalar limits 1 state = (.ok (), next byte state)) ∨
      (¬ Within limits (next byte state) ∧
        ∃ error after, chargeScalar limits 1 state = (.error error, after)) := by
  have charged : chargeScalar limits 1 state =
      (startScalar limits >>= fun _ => growScalar limits 1) state := rfl
  rw [charged, Raise.bind_apply]
  cases active : state.scalarActive with
  | true =>
    have sameNext : next byte state = { state with scalarBytes := state.scalarBytes + 1 } := by
      rw [next, outside, plain, active]
      rfl
    have started : startScalar limits state = (.ok (), state) := if_pos active
    rw [sameNext, started]
    dsimp only
    by_cases long : limits.maxScalarBytes < state.scalarBytes + 1
    · refine .inr ⟨fun within => absurd within.shallow.scalar (Nat.not_le_of_gt long), ?_⟩
      exact ⟨_, _, if_pos long⟩
    · exact .inl ⟨⟨⟨start.shallow.depth, Nat.le_of_not_gt long⟩, start.estimate⟩, if_neg long⟩
  | false =>
    have sameNext : next byte state =
        { state with tokens := state.tokens + 1, scalarActive := true, scalarBytes := 1 } := by
      rw [next, outside, plain, active]
      rfl
    have started : startScalar limits state =
        countToken limits { state with scalarActive := true, scalarBytes := 0 } :=
      if_neg (by rw [active]; exact Bool.false_ne_true)
    rw [sameNext, started]
    rcases countToken_cases limits { state with scalarActive := true, scalarBytes := 0 } with
      ⟨fits, counted⟩ | ⟨beyond, _, _, raised⟩
    · rw [counted]
      have short : ¬ limits.maxScalarBytes < 0 + 1 := Nat.not_lt_of_ge limits.limits_pos.2.1
      exact .inl ⟨⟨⟨start.shallow.depth, limits.limits_pos.2.1⟩, fits⟩, if_neg short⟩
    · rw [raised]
      exact .inr ⟨fun within => absurd within.estimate (Nat.not_le_of_gt beyond), _, _, rfl⟩

/-- **A byte** does what it does without limits, or leaves them and raises. -/
theorem stepByte_cases (byte : UInt8) (start : Within limits state) :
    (Within limits (next byte state) ∧ stepByte limits byte state = (.ok (), next byte state)) ∨
      (¬ Within limits (next byte state) ∧
        ∃ error after, stepByte limits byte state = (.error error, after)) := by
  cases outside : state.inString with
  | false =>
    cases special : isOutsideSpecial byte with
    | true =>
      have here : stepByte limits byte state = structural limits byte state := by
        rw [stepByte, outside, special]
        rfl
      rw [here]
      exact structural_cases start outside special
    | false =>
      have here : stepByte limits byte state = chargeScalar limits 1 state := by
        rw [stepByte, outside, special]
        rfl
      rw [here]
      exact scalar_cases start outside special
  | true =>
    refine .inl ?_
    unfold stepByte next
    simp only [outside, if_true]
    split_ifs
    all_goals exact ⟨start.of_eq rfl rfl (Nat.le_refl _) (Nat.le_refl _), rfl⟩

/-- **Bytes** do what they do without limits where no state leaves them, and raise elsewhere. -/
theorem feedBytes_cases (bytes : Bytes) (start : Within limits state) :
    ((∀ before, before <+: bytes → Within limits (nexts before state)) ∧
        feedBytes limits bytes state = (.ok (), nexts bytes state)) ∨
      ((∃ before, before <+: bytes ∧ ¬ Within limits (nexts before state)) ∧
        ∃ error after, feedBytes limits bytes state = (.error error, after)) := by
  induction bytes generalizing state with
  | nil =>
    refine .inl ⟨fun before isPrefix => ?_, rfl⟩
    rw [List.prefix_nil.mp isPrefix]
    exact start
  | cons byte rest ih =>
    rw [feedBytes, Raise.bind_apply]
    rcases stepByte_cases byte start with ⟨within, stepped⟩ | ⟨beyond, _, _, raised⟩
    · rw [stepped]
      rcases ih within with ⟨all, fed⟩ | ⟨⟨before, isPrefix, beyond⟩, raised⟩
      · refine .inl ⟨fun before isPrefix => ?_, fed⟩
        rcases before with _ | ⟨head, tail⟩
        · exact start
        · obtain ⟨rfl, inRest⟩ := List.cons_prefix_cons.mp isPrefix
          exact all tail inRest
      · exact .inr ⟨⟨byte :: before, List.cons_prefix_cons.mpr ⟨rfl, isPrefix⟩, beyond⟩, raised⟩
    · rw [raised]
      exact .inr ⟨⟨[byte], List.cons_prefix_cons.mpr ⟨rfl, List.nil_prefix⟩, beyond⟩, _, _, rfl⟩

/-! ### Chunks -/

/-- The chunks one after the other. -/
def feeds (limits : Limits) : List Bytes → Call
  | [] => pure ()
  | chunk :: rest => do
    let _ ← feedPython limits chunk
    feeds limits rest

/-- **A document fits**: no state on its way is too deep or has too long a scalar, and its estimate
is within the limit in the end. -/
structure Fits (limits : Limits) (state : ScanState) (bytes : Bytes) : Prop where
  shallow : ∀ before, before <+: bytes → Shallow limits (nexts before state)
  estimate : (state.rawBytes + bytes.length) * limits.rawMemoryMultiplier +
    (nexts bytes state).tokens * limits.tokenMemoryBytes ≤ limits.maxEstimatedBytes

/-- The state behind some bytes, which are charged. -/
def behind (bytes : Bytes) (state : ScanState) : ScanState :=
  { nexts bytes state with rawBytes := state.rawBytes + bytes.length }

theorem shallow_raw {rawBytes : Nat} :
    Shallow limits { state with rawBytes := rawBytes } ↔ Shallow limits state :=
  ⟨fun shallow => ⟨shallow.depth, shallow.scalar⟩, fun shallow => ⟨shallow.depth, shallow.scalar⟩⟩

/-- **A chunk** is fed where it fits, and raises elsewhere. -/
theorem feedPython_cases (chunk : Bytes) (start : Shallow limits state) :
    (Fits limits state chunk ∧
        ∃ estimate, feedPython limits chunk state = (.ok estimate, behind chunk state)) ∨
      (¬ Fits limits state chunk ∧
        ∃ error after, feedPython limits chunk state = (.error error, after)) := by
  obtain ⟨charged, isCharged⟩ : ∃ charged : ScanState,
    { state with rawBytes := state.rawBytes + chunk.length } = charged := ⟨_, rfl⟩
  have along : ∀ bytes, nexts bytes charged =
      { nexts bytes state with rawBytes := state.rawBytes + chunk.length } := by
    intro bytes
    rw [← isCharged, nexts_raw]
  have estimateAt : ∀ bytes, (nexts bytes charged).estimatedBytes limits =
      (state.rawBytes + chunk.length) * limits.rawMemoryMultiplier +
        (nexts bytes state).tokens * limits.tokenMemoryBytes := by
    intro bytes
    rw [along]
    rfl
  have grows : ∀ before, before <+: chunk →
      (nexts before charged).estimatedBytes limits ≤ (nexts chunk charged).estimatedBytes
        limits := by
    rintro before ⟨more, rfl⟩
    rw [estimateAt, estimateAt, nexts_append]
    exact Nat.add_le_add_left (Nat.mul_le_mul_right _ (tokens_le_nexts more _)) _
  unfold feedPython
  dsimp only
  rw [isCharged]
  by_cases heavy : limits.maxEstimatedBytes < charged.estimatedBytes limits
  · refine .inr ⟨fun fits => ?_, _, _, if_pos heavy⟩
    have whole := fits.estimate
    rw [← estimateAt] at whole
    exact absurd ((grows [] List.nil_prefix).trans whole) (Nat.not_le_of_gt heavy)
  rw [if_neg heavy, scan_eq_feedBytes chunk.length chunk (Nat.le_refl _)]
  have startWithin : Within limits charged :=
    ⟨isCharged ▸ shallow_raw.mpr start, Nat.le_of_not_gt heavy⟩
  rcases feedBytes_cases chunk startWithin with
    ⟨all, fed⟩ | ⟨⟨before, isPrefix, beyond⟩, _, _, raised⟩
  · rw [fed]
    refine .inl ⟨⟨fun before isPrefix => ?_, ?_⟩, (nexts chunk charged).estimatedBytes limits, ?_⟩
    · have here := (all before isPrefix).shallow
      rw [along] at here
      exact shallow_raw.mp here
    · rw [← estimateAt]
      exact (all chunk List.prefix_rfl).estimate
    · rw [along]
      rfl
  · rw [raised]
    refine .inr ⟨fun fits => beyond ⟨?_, ?_⟩, _, _, rfl⟩
    · rw [along]
      exact shallow_raw.mpr (fits.shallow before isPrefix)
    · refine (grows before isPrefix).trans ?_
      rw [estimateAt]
      exact fits.estimate

theorem behind_append (first second : Bytes) (state : ScanState) :
    behind (first ++ second) state = behind second (behind first state) := by
  have inner := nexts_raw second (nexts first state) (state.rawBytes + first.length)
  unfold behind
  dsimp only
  rw [inner, nexts_append, List.length_append, ← Nat.add_assoc]

theorem fits_append (first second : Bytes) (state : ScanState) :
    Fits limits state (first ++ second) ↔ Fits limits state first ∧ Fits limits
      (behind first state) second := by
  have later : ∀ bytes, nexts bytes (behind first state) =
      { nexts (first ++ bytes) state with rawBytes := state.rawBytes + first.length } := by
    intro bytes
    rw [behind, nexts_raw, nexts_append]
  constructor
  · intro fits
    refine ⟨⟨fun before isPrefix => fits.shallow before (isPrefix.trans (List.prefix_append _ _)),
      ?_⟩,
      ⟨fun before isPrefix => ?_, ?_⟩⟩
    · refine (Nat.add_le_add (Nat.mul_le_mul_right _ ?_) (Nat.mul_le_mul_right _ ?_)).trans
        fits.estimate
      · rw [List.length_append]
        omega
      · rw [nexts_append]
        exact tokens_le_nexts second _
    · rw [later]
      exact shallow_raw.mpr (fits.shallow _ ((List.prefix_append_right_inj first).mpr isPrefix))
    · have whole := fits.estimate
      rw [List.length_append, ← Nat.add_assoc] at whole
      rw [later]
      exact whole
  · rintro ⟨front, back⟩
    refine ⟨fun before isPrefix => ?_, ?_⟩
    · rcases List.prefix_or_prefix_of_prefix isPrefix (List.prefix_append first second) with
        inFront | ⟨rest, rfl⟩
      · exact front.shallow before inFront
      · have here := back.shallow rest ((List.prefix_append_right_inj first).mp isPrefix)
        rw [later] at here
        exact shallow_raw.mp here
    · have whole := back.estimate
      rw [later] at whole
      rw [List.length_append, ← Nat.add_assoc]
      exact whole

/-- **Chunks** are fed where the document fits, and one of them raises elsewhere. -/
theorem feeds_cases (chunks : List Bytes) (start : Shallow limits state)
    (light : state.estimatedBytes limits ≤ limits.maxEstimatedBytes) :
    (Fits limits state chunks.flatten ∧
        feeds limits chunks state = (.ok (), behind chunks.flatten state)) ∨
      (¬ Fits limits state chunks.flatten ∧
        ∃ error after, feeds limits chunks state = (.error error, after)) := by
  induction chunks generalizing state with
  | nil =>
    refine .inl ⟨⟨fun before isPrefix => ?_, light⟩, rfl⟩
    rw [List.prefix_nil.mp isPrefix]
    exact start
  | cons chunk rest ih =>
    rw [feeds, Raise.bind_apply, List.flatten_cons]
    rcases feedPython_cases chunk start with ⟨fits, estimate, fed⟩ | ⟨beyond, _, _, raised⟩
    · rw [fed]
      dsimp only
      have next : Shallow limits (behind chunk state) :=
          shallow_raw.mpr (fits.shallow chunk List.prefix_rfl)
      rcases ih next fits.estimate with ⟨later, fedAll⟩ | ⟨beyond, raised⟩
      · refine .inl ⟨(fits_append chunk rest.flatten state).mpr ⟨fits, later⟩, ?_⟩
        rw [fedAll, behind_append]
      · exact .inr ⟨fun whole => beyond ((fits_append chunk rest.flatten state).mp whole).2, raised⟩
    · rw [raised]
      exact .inr ⟨fun whole => beyond ((fits_append chunk rest.flatten state).mp whole).1, _, _,
        rfl⟩

end UniApi.Admission.JsonMemory
