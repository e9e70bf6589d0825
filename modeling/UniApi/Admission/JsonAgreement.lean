/-
**The two scanners of the JSON memory estimator side by side.**

The native scanner counts in words and the other one does not. A chunk has more bytes than anything
that is counted in it, so that no word overflows before the raw bytes do.

* `Counted`: the counters are at most how many bytes have been read;
* `Agrees`: what the two scanners did is the same;
* `scanLoop_agrees`: it is, over a chunk;
* `native_agrees`: and over chunks, for as long as the counters are words.
-/

import UniApi.Admission.JsonNative
import UniApi.Admission.JsonScan

namespace UniApi.Admission.JsonMemory

open UniApi.Lib

namespace Native

/-! ### What has been counted -/

/-- **The counters** are at most how many bytes have been read, and `total` is charged. -/
structure Counted (total read : ℕ) (state : ScanState) : Prop where
  raw : state.rawBytes = total
  tokens : state.tokens ≤ read
  depth : state.depth ≤ read
  peak : state.peakDepth ≤ read
  scalar : state.scalarBytes ≤ read

theorem Counted.mono {total read more : ℕ} {state : ScanState} (counted : Counted total read state)
    (le : read ≤ more) : Counted total more state :=
  ⟨counted.raw, counted.tokens.trans le, counted.depth.trans le, counted.peak.trans le,
    counted.scalar.trans le⟩

section Counting

variable {limits : JsonMemory.Limits} {total read : ℕ} {state after : ScanState}

theorem startScalar_scalar {before after : ScanState} {bound : ℕ}
    (started : JsonMemory.startScalar limits before = (.ok (), after))
    (short : before.scalarBytes ≤ bound) : after.scalarBytes ≤ bound := by
  unfold JsonMemory.startScalar JsonMemory.countToken at started
  split at started
  · cases started
    exact short
  · dsimp only at started
    split at started
    · cases started
    · cases started
      exact Nat.zero_le bound

variable (limits)

theorem countToken_counted (counted : Counted total read state) :
    Counted total (read + 1) (JsonMemory.countToken limits state).2 := by
  have more := counted.mono (Nat.le_succ read)
  unfold JsonMemory.countToken
  dsimp only
  split
  all_goals exact ⟨counted.raw, Nat.succ_le_succ counted.tokens, more.depth, more.peak, more.scalar⟩

theorem structural_counted (counted : Counted total read state) (byte : UInt8) :
    Counted total (read + 1) (JsonMemory.structural limits byte state).2 := by
  have finished : Counted total read state.finishScalar :=
    ⟨counted.raw, counted.tokens, counted.depth, counted.peak, Nat.zero_le read⟩
  have more := finished.mono (Nat.le_succ read)
  have token := countToken_counted limits finished
  have sameDepth : (JsonMemory.countToken limits state.finishScalar).2.depth = state.depth := by
    unfold JsonMemory.countToken
    dsimp only
    split <;> rfl
  unfold JsonMemory.structural
  split
  · generalize JsonMemory.countToken limits state.finishScalar = result at token
    rcases result with ⟨_ | _, after⟩
    · exact token
    · exact ⟨token.raw, token.tokens, token.depth, token.peak, token.scalar⟩
  split
  · generalize JsonMemory.countToken limits state.finishScalar = result at token sameDepth
    rcases result with ⟨_ | _, after⟩
    · exact token
    have deeper : after.depth + 1 ≤ read + 1 := by
      have here : after.depth = state.depth := sameDepth
      rw [here]
      exact Nat.succ_le_succ counted.depth
    dsimp only
    split
    all_goals exact ⟨token.raw, token.tokens, deeper, Nat.max_le.mpr ⟨token.peak, deeper⟩,
      token.scalar⟩
  split
  · exact ⟨more.raw, more.tokens, (Nat.sub_le _ _).trans more.depth, more.peak, more.scalar⟩
  · exact more

theorem startScalar_counted (counted : Counted total read state) :
    Counted total (read + 1) (JsonMemory.startScalar limits state).2 := by
  unfold JsonMemory.startScalar
  split
  · exact counted.mono (Nat.le_succ read)
  · have started : Counted total read { state with scalarActive := true, scalarBytes := 0 } :=
      ⟨counted.raw, counted.tokens, counted.depth, counted.peak, Nat.zero_le read⟩
    exact countToken_counted limits started

theorem chargeScalar_counted (counted : Counted total read state) :
    Counted total (read + 1) (JsonMemory.chargeScalar limits 1 state).2 := by
  have charged : JsonMemory.chargeScalar limits 1 state =
      (JsonMemory.startScalar limits >>= fun _ => JsonMemory.growScalar limits 1) state := rfl
  rw [charged, Raise.bind_apply]
  have more := startScalar_counted limits counted
  have short : ∀ after, JsonMemory.startScalar limits state = (.ok (), after) →
      after.scalarBytes ≤ read := fun after started => startScalar_scalar started counted.scalar
  generalize JsonMemory.startScalar limits state = result at more short
  rcases result with ⟨_ | _, after⟩
  · exact more
  have grows : after.scalarBytes + 1 ≤ read + 1 := Nat.succ_le_succ (short after rfl)
  show Counted total (read + 1) (JsonMemory.growScalar limits 1 after).2
  unfold JsonMemory.growScalar
  split
  · rename_i long
    exact ⟨more.raw, more.tokens, more.depth, more.peak, Nat.le_trans long grows⟩
  · exact ⟨more.raw, more.tokens, more.depth, more.peak, grows⟩

/-- **A byte** raises the counters by one at most. -/
theorem stepByte_counted (counted : Counted total read state) (byte : UInt8) :
    Counted total (read + 1) (stepByte limits byte state).2 := by
  have more := counted.mono (Nat.le_succ read)
  unfold stepByte
  split
  · split_ifs
    all_goals exact ⟨more.raw, more.tokens, more.depth, more.peak, more.scalar⟩
  split
  · exact structural_counted limits counted byte
  · exact chargeScalar_counted limits counted

/-- **Bytes** raise the counters by one each at most. -/
theorem feedBytes_counted (bytes : Bytes) (counted : Counted total read state) :
    Counted total (read + bytes.length) (feedBytes limits bytes state).2 := by
  induction bytes generalizing read state with
  | nil => exact counted
  | cons byte rest ih =>
    have here := stepByte_counted limits counted byte
    rw [feedBytes, Raise.bind_apply, List.length_cons, Nat.add_comm rest.length, ← Nat.add_assoc]
    generalize stepByte limits byte state = result at here
    rcases result with ⟨_ | _, after⟩
    · exact here.mono (Nat.le_add_right _ _)
    · exact ih here

/-! Where no chunk raises, the estimate stays within the limit. -/

variable {limits}

theorem countToken_light (counted : JsonMemory.countToken limits state = (.ok (), after)) :
    after.estimatedBytes limits ≤ limits.maxEstimatedBytes := by
  unfold JsonMemory.countToken at counted
  dsimp only at counted
  split at counted
  · cases counted
  · rename_i fits
    cases counted
    exact Nat.le_of_not_gt fits

theorem structural_light (light : state.estimatedBytes limits ≤ limits.maxEstimatedBytes)
    {byte : UInt8} (shaped : JsonMemory.structural limits byte state = (.ok (), after)) :
    after.estimatedBytes limits ≤ limits.maxEstimatedBytes := by
  unfold JsonMemory.structural at shaped
  split at shaped
  · split at shaped
    · cases shaped
    · rename_i counted
      cases shaped
      have kept := countToken_light counted
      exact kept
  split at shaped
  · split at shaped
    · cases shaped
    · rename_i counted
      have kept := countToken_light counted
      dsimp only at shaped
      split at shaped
      · cases shaped
      · cases shaped
        exact kept
  split at shaped
  all_goals
    cases shaped
    exact light

theorem chargeScalar_light (light : state.estimatedBytes limits ≤ limits.maxEstimatedBytes)
    (charged : JsonMemory.chargeScalar limits 1 state = (.ok (), after)) :
    after.estimatedBytes limits ≤ limits.maxEstimatedBytes := by
  obtain ⟨⟨⟩, between, started, grown⟩ := Raise.bind_ok.mp charged
  have early : between.estimatedBytes limits ≤ limits.maxEstimatedBytes := by
    unfold JsonMemory.startScalar at started
    split at started
    · cases started
      exact light
    · exact countToken_light started
  unfold JsonMemory.growScalar at grown
  split at grown
  · cases grown
  · cases grown
    exact early

theorem stepByte_light (light : state.estimatedBytes limits ≤ limits.maxEstimatedBytes)
    {byte : UInt8} (stepped : stepByte limits byte state = (.ok (), after)) :
    after.estimatedBytes limits ≤ limits.maxEstimatedBytes := by
  unfold stepByte at stepped
  split at stepped
  · split_ifs at stepped
    all_goals
      cases stepped
      exact light
  split at stepped
  · exact structural_light light stepped
  · exact chargeScalar_light light stepped

theorem feedBytes_light {bytes : Bytes}
    (light : state.estimatedBytes limits ≤ limits.maxEstimatedBytes)
    (fed : feedBytes limits bytes state = (.ok (), after)) :
    after.estimatedBytes limits ≤ limits.maxEstimatedBytes := by
  induction bytes generalizing state with
  | nil =>
    cases fed
    exact light
  | cons byte rest ih =>
    obtain ⟨⟨⟩, between, stepped, later⟩ := Raise.bind_ok.mp fed
    exact ih (stepByte_light light stepped) later

end Counting

/-! ### Side by side -/

def errorCode : ComplexityReason → UInt8
  | .maxDepth => errorMaxDepth
  | .maxScalarBytes => errorMaxScalarBytes
  | .maxEstimatedBytes => errorMaxEstimatedBytes

def phaseCode : TriggerPhase → UInt8
  | .chunkRawCharge => phaseChunkRawCharge
  | .structuralItemScan => phaseStructuralItemScan
  | .depthScan => phaseDepthScan
  | .scalarScan => phaseScalarScan

/-- **The two scanners did the same**: they returned, or raised for one reason in one phase, and their
counters are the same. -/
inductive Agrees (limits : JsonMemory.Limits) :
    Except ScanError Unit × State → Except ComplexityError Unit × ScanState → Prop
  | returned (state : State) : Agrees limits (.ok (), state) (.ok (), state.view)
  | raised (reason : ComplexityReason) (phase : TriggerPhase) (state : State) :
    Agrees limits (.error ⟨errorCode reason, phaseCode phase⟩, state)
      (raiseComplexity limits reason phase state.view)

section Agreement

variable {limits : JsonMemory.Limits} {words : Limits}

/-- One after the other. -/
theorem Agrees.bind {native nativeNext : Call} {python pythonNext : JsonMemory.Call} {state : State}
    (first : Agrees limits (native state) (python state.view))
    (second : ∀ after, python state.view = (.ok (), after.view) →
      Agrees limits (nativeNext after) (pythonNext after.view)) :
    Agrees limits ((native >>= fun _ => nativeNext) state)
      ((python >>= fun _ => pythonNext) state.view) := by
  rw [Raise.bind_apply, Raise.bind_apply]
  generalize native state = here at first
  generalize there : python state.view = pythonHere at first second
  cases first with
  | returned after => exact second after rfl
  | raised reason phase after => exact .raised reason phase after

/-- **The two estimates** are over the limit at once. -/
theorem exceeds_iff (are : Words limits words) (state : State) :
    state.exceedsEstimatedLimit words = true ↔
      limits.maxEstimatedBytes < state.view.estimatedBytes limits := by
  have same : state.view.estimatedBytes limits =
      state.rawBytes.toNat * words.rawMemoryMultiplier.toNat +
        state.tokens.toNat * words.tokenMemoryBytes.toNat := by
    rw [are.raw, are.token]
    rfl
  have limit := words.maxEstimatedBytes.toNat_lt
  rw [same, ← are.estimate, State.exceedsEstimatedLimit, State.estimatedBytes]
  split
  · exact decide_eq_true_iff
  · exact iff_of_true rfl (by omega)

theorem estimated_view (are : Words limits words) {state : State}
    (light : state.view.estimatedBytes limits ≤ limits.maxEstimatedBytes) :
    state.estimatedBytes words = some (state.view.estimatedBytes limits) := by
  have same : state.view.estimatedBytes limits =
      state.rawBytes.toNat * words.rawMemoryMultiplier.toNat +
        state.tokens.toNat * words.tokenMemoryBytes.toNat := by
    rw [are.raw, are.token]
    rfl
  have limit := words.maxEstimatedBytes.toNat_lt
  rw [← are.estimate, same] at light
  rw [same, State.estimatedBytes]
  exact if_pos (by omega)

theorem countToken_agrees (are : Words limits words) (state : State)
    (room : state.tokens.toNat + 1 < 2 ^ 64) :
    Agrees limits (countToken words state) (JsonMemory.countToken limits state.view) := by
  obtain ⟨counted, isCounted⟩ : ∃ counted : State,
    { state with tokens := saturatingAdd state.tokens 1 } = counted := ⟨_, rfl⟩
  have same : counted.view = { state.view with tokens := state.view.tokens + 1 } := by
    rw [← isCounted]
    show { state.view with tokens := (saturatingAdd state.tokens 1).toNat } = _
    have sum : (saturatingAdd state.tokens 1).toNat = state.tokens.toNat + 1 := by
      rw [toNat_saturatingAdd]
      exact Nat.min_eq_left (Nat.le_sub_one_of_lt room)
    rw [sum]
    rfl
  unfold countToken JsonMemory.countToken
  dsimp only
  rw [isCounted, ← same]
  by_cases heavy : limits.maxEstimatedBytes < counted.view.estimatedBytes limits
  · rw [if_pos heavy, if_pos ((exceeds_iff are counted).mpr heavy)]
    exact .raised .maxEstimatedBytes .structuralItemScan counted
  · rw [if_neg heavy, if_neg fun exceeds => heavy ((exceeds_iff are counted).mp exceeds)]
    exact .returned counted

theorem startScalar_agrees (are : Words limits words) (state : State)
    (room : state.tokens.toNat + 1 < 2 ^ 64) :
    Agrees limits (startScalar words state) (JsonMemory.startScalar limits state.view) := by
  unfold startScalar JsonMemory.startScalar
  by_cases active : state.scalarActive = true
  · have same : state.view.scalarActive = true := active
    rw [if_pos active, if_pos same]
    exact .returned state
  · have same : ¬ state.view.scalarActive = true := active
    rw [if_neg active, if_neg same]
    exact countToken_agrees are { state with scalarActive := true, scalarBytes := 0 } room

theorem growScalar_agrees (are : Words limits words) (state : State) {length : ℕ}
    (room : state.scalarBytes.toNat + length < 2 ^ 64) :
    Agrees limits (growScalar words length state) (JsonMemory.growScalar limits length
      state.view) := by
  obtain ⟨run, isRun, same⟩ := tryFrom_of_lt (Nat.lt_of_le_of_lt (Nat.le_add_left length _) room)
  have sum : (saturatingAdd state.scalarBytes run).toNat = state.view.scalarBytes + length := by
    rw [toNat_saturatingAdd, same]
    exact Nat.min_eq_left (Nat.le_sub_one_of_lt room)
  unfold growScalar JsonMemory.growScalar
  dsimp only
  rw [isRun, Option.getD_some]
  by_cases long : limits.maxScalarBytes < state.view.scalarBytes + length
  · have exceeds : words.maxScalarBytes < saturatingAdd state.scalarBytes run := by
      rw [UInt64.lt_iff_toNat_lt, sum, are.scalar]
      exact long
    have edge : (saturatingAdd words.maxScalarBytes 1).toNat = limits.maxScalarBytes + 1 := by
      rw [toNat_saturatingAdd, are.scalar]
      exact Nat.min_eq_left (Nat.le_sub_one_of_lt (Nat.lt_of_le_of_lt long room))
    rw [if_pos long, if_pos exceeds, ← edge]
    exact .raised .maxScalarBytes .scalarScan
      { state with scalarBytes := saturatingAdd words.maxScalarBytes 1 }
  · have within : ¬ words.maxScalarBytes < saturatingAdd state.scalarBytes run := by
      rw [UInt64.lt_iff_toNat_lt, sum, are.scalar]
      exact long
    rw [if_neg long, if_neg within, ← sum]
    exact .returned { state with scalarBytes := saturatingAdd state.scalarBytes run }

theorem chargeScalar_agrees (are : Words limits words) (state : State) {length : ℕ}
    (tokens : state.tokens.toNat + length < 2 ^ 64)
    (scalar : state.scalarBytes.toNat + length < 2 ^ 64) :
    Agrees limits (chargeScalar words length state)
      (JsonMemory.chargeScalar limits length state.view) := by
  rcases Nat.eq_zero_or_pos length with rfl | some_
  · exact .returned state
  rw [chargeScalar, JsonMemory.chargeScalar, if_pos some_, if_neg (Nat.ne_of_gt some_)]
  refine (startScalar_agrees are state (by omega)).bind fun after started => ?_
  have short : after.scalarBytes.toNat ≤ state.scalarBytes.toNat :=
    startScalar_scalar started (Nat.le_refl _)
  exact growScalar_agrees are after (by omega)

theorem structural_agrees (are : Words limits words) (state : State) (value : UInt8)
    (tokens : state.tokens.toNat + 1 < 2 ^ 64) (depth : state.depth.toNat + 1 < 2 ^ 64) :
    Agrees limits (structural words value state) (JsonMemory.structural limits value
      state.view) := by
  have counts := countToken_agrees are state.finishScalar tokens
  have finished : state.finishScalar.view = state.view.finishScalar := rfl
  rw [finished] at counts
  unfold structural JsonMemory.structural
  by_cases quote : value = 0x22
  · rw [if_pos quote, if_pos quote]
    generalize countToken words state.finishScalar = native at counts
    generalize JsonMemory.countToken limits state.view.finishScalar = python at counts
    cases counts with
    | returned after => exact .returned { after with inString := true }
    | raised reason phase after => exact .raised reason phase after
  by_cases opens : value = 0x7B ∨ value = 0x5B
  · rw [if_neg quote, if_neg quote, if_pos opens, if_pos opens]
    have sameDepth : ∀ after, JsonMemory.countToken limits state.view.finishScalar =
      (.ok (), after) →
        after.depth = state.depth.toNat := by
      intro after counted
      unfold JsonMemory.countToken at counted
      dsimp only at counted
      split at counted
      · cases counted
      · cases counted
        rfl
    generalize countToken words state.finishScalar = native at counts
    generalize JsonMemory.countToken limits state.view.finishScalar = python at counts sameDepth
    cases counts with
    | raised reason phase after => exact .raised reason phase after
    | returned after =>
      dsimp only
      obtain ⟨opened, isOpened⟩ : ∃ opened : State,
        { after with
          depth := saturatingAdd after.depth 1
          peakDepth := max after.peakDepth (saturatingAdd after.depth 1) } = opened := ⟨_, rfl⟩
      have sum : (saturatingAdd after.depth 1).toNat = after.depth.toNat + 1 := by
        rw [toNat_saturatingAdd]
        have here : after.depth.toNat = state.depth.toNat := sameDepth after.view rfl
        exact Nat.min_eq_left (Nat.le_sub_one_of_lt (here ▸ depth))
      have same : opened.view =
          { after.view with
            depth := after.view.depth + 1
            peakDepth := max after.view.peakDepth (after.view.depth + 1) } := by
        rw [← isOpened]
        show { after.view with
            depth := (saturatingAdd after.depth 1).toNat
            peakDepth := (max after.peakDepth (saturatingAdd after.depth 1)).toNat } = _
        rw [toNat_max, sum]
        rfl
      by_cases deep : limits.maxDepth < after.view.depth + 1
      · have deepWord : words.maxDepth < saturatingAdd after.depth 1 := by
          rw [UInt64.lt_iff_toNat_lt, are.depth, sum]
          exact deep
        rw [if_pos deep, if_pos deepWord, isOpened, ← same]
        exact .raised .maxDepth .depthScan opened
      · have fits : ¬ words.maxDepth < saturatingAdd after.depth 1 := by
          rw [UInt64.lt_iff_toNat_lt, are.depth, sum]
          exact deep
        rw [if_neg deep, if_neg fits, isOpened, ← same]
        exact .returned opened
  by_cases closes : value = 0x7D ∨ value = 0x5D
  · rw [if_neg quote, if_neg quote, if_neg opens, if_neg opens, if_pos closes, if_pos closes]
    have same : ({ state.finishScalar with depth := saturatingSub state.depth 1 } : State).view =
        { state.view.finishScalar with depth := state.view.depth - 1 } := by
      show { state.view.finishScalar with depth := (saturatingSub state.depth 1).toNat } = _
      rw [toNat_saturatingSub]
      rfl
    rw [← same]
    exact .returned { state.finishScalar with depth := saturatingSub state.depth 1 }
  · rw [if_neg quote, if_neg quote, if_neg opens, if_neg opens, if_neg closes, if_neg closes]
    exact .returned state.finishScalar

/-! ### The loop -/

/-- What the crate says of `memchr2`: where the first of two bytes is. -/
def FindsFirst (memchr2 : UInt8 → UInt8 → Bytes → Option ℕ) : Prop :=
  ∀ first second haystack,
    memchr2 first second haystack = haystack.findIdx? fun byte => byte == first || byte == second

theorem isOutsideSpecial_eq : isOutsideSpecial = JsonMemory.isOutsideSpecial := by
  funext value
  rw [Bool.eq_iff_iff]
  simp [isOutsideSpecial, JsonMemory.isOutsideSpecial, or_assoc]

theorem findIdx_run {special : UInt8 → Bool} {run : Bytes}
    (plain : ∀ byte ∈ run, special byte = false) {value : UInt8} (isSpecial : special value = true)
    (after : Bytes) : (run ++ value :: after).findIdx? special = some run.length := by
  rw [List.findIdx?_append, List.findIdx?_eq_none_iff.mpr plain, List.findIdx?_cons, isSpecial]
  exact congrArg some (Nat.zero_add _)

variable {memchr2 : UInt8 → UInt8 → Bytes → Option ℕ} {state : State} {run : Bytes}

theorem scanLoop_nil : scanLoop memchr2 words [] state = (.ok (), state) := by
  rw [scanLoop]
  exact if_pos rfl

theorem scanLoop_escaped (inside : state.inString = true) (escaped : state.escaped = true)
    (byte : UInt8) (rest : Bytes) : scanLoop memchr2 words (byte :: rest) state =
      scanLoop memchr2 words rest { state with escaped := false } := by
  rw [scanLoop, if_neg (by simp), if_pos inside, if_pos escaped]
  rfl

section Strings

variable (finds : FindsFirst memchr2) (inside : state.inString = true)
  (bare : state.escaped = false) (plain : ∀ byte ∈ run, isStringSpecial byte = false)

include finds inside bare plain

theorem scanLoop_string : scanLoop memchr2 words run state = (.ok (), state) := by
  rcases run with _ | ⟨byte, rest⟩
  · exact scanLoop_nil
  have nowhere : memchr2 0x22 0x5C (byte :: rest) = none :=
    (finds _ _ _).trans (List.findIdx?_eq_none_iff.mpr plain)
  rw [scanLoop, if_neg (by simp), if_pos inside, if_neg (by rw [bare]; exact Bool.false_ne_true),
    nowhere]

theorem scanLoop_quote (after : Bytes) : scanLoop memchr2 words (run ++ 0x22 :: after) state =
    scanLoop memchr2 words after { state with inString := false } := by
  have here : memchr2 0x22 0x5C (run ++ 0x22 :: after) = some run.length :=
    (finds _ _ _).trans (findIdx_run plain (by decide) after)
  rw [scanLoop, if_neg (by simp), if_pos inside, if_neg (by rw [bare]; exact Bool.false_ne_true),
    here]
  dsimp only
  split
  · rename_i dropped
    rw [List.drop_left] at dropped
    cases dropped
  · rename_i dropped
    rw [List.drop_left] at dropped
    cases dropped
    exact if_neg (by decide)

theorem scanLoop_backslash (byte : UInt8) (behind : Bytes) :
    scanLoop memchr2 words (run ++ 0x5C :: byte :: behind) state =
      scanLoop memchr2 words behind state := by
  have here : memchr2 0x22 0x5C (run ++ 0x5C :: byte :: behind) = some run.length :=
    (finds _ _ _).trans (findIdx_run plain (by decide) (byte :: behind))
  rw [scanLoop, if_neg (by simp), if_pos inside, if_neg (by rw [bare]; exact Bool.false_ne_true),
    here]
  dsimp only
  split
  · rename_i dropped
    rw [List.drop_left] at dropped
    cases dropped
  · rename_i dropped
    rw [List.drop_left] at dropped
    cases dropped
    exact if_pos rfl

theorem scanLoop_backslash_end : scanLoop memchr2 words (run ++ [0x5C]) state =
    (.ok (), { state with escaped := true }) := by
  have here : memchr2 0x22 0x5C (run ++ [0x5C]) = some run.length :=
    (finds _ _ _).trans (findIdx_run plain (by decide) [])
  rw [scanLoop, if_neg (by simp), if_pos inside, if_neg (by rw [bare]; exact Bool.false_ne_true),
    here]
  dsimp only
  split
  · rename_i dropped
    rw [List.drop_left] at dropped
    cases dropped
  · rename_i dropped
    rw [List.drop_left] at dropped
    cases dropped
    exact if_pos rfl

end Strings

section Outside

variable (outside : state.inString = false)
  (plain : ∀ byte ∈ run, JsonMemory.isOutsideSpecial byte = false)

include outside plain

theorem scanLoop_scalar :
    scanLoop memchr2 words run state = chargeScalar words run.length state := by
  rcases run with _ | ⟨byte, rest⟩
  · exact scanLoop_nil
  have nowhere : (byte :: rest).findIdx? isOutsideSpecial = none := by
    rw [isOutsideSpecial_eq]
    exact List.findIdx?_eq_none_iff.mpr plain
  rw [scanLoop, if_neg (by simp), if_neg (by rw [outside]; exact Bool.false_ne_true), nowhere]
  dsimp only
  rw [Option.getD_none, List.drop_length]
  rcases chargeScalar words (byte :: rest).length state with ⟨_ | _, after⟩ <;> rfl

theorem scanLoop_run {value : UInt8} (isSpecial : JsonMemory.isOutsideSpecial value = true)
    (after : Bytes) : scanLoop memchr2 words (run ++ value :: after) state =
      (do
        chargeScalar words run.length
        structural words value
        scanLoop memchr2 words after) state := by
  have here : (run ++ value :: after).findIdx? isOutsideSpecial = some run.length := by
    rw [isOutsideSpecial_eq]
    exact findIdx_run plain isSpecial after
  rw [scanLoop, if_neg (by simp), if_neg (by rw [outside]; exact Bool.false_ne_true), here,
    Raise.bind_apply]
  dsimp only
  rw [Option.getD_some]
  rcases chargeScalar words run.length state with ⟨_ | _, between⟩
  · rfl
  dsimp only
  split
  · rename_i dropped
    rw [List.drop_left] at dropped
    cases dropped
  · rename_i dropped
    rw [List.drop_left] at dropped
    cases dropped
    rw [Raise.bind_apply]
    rcases structural words value between with ⟨_ | _, next⟩ <;> rfl

end Outside

/-- **The loops** do the same over what is left of a chunk. -/
theorem scanLoop_agrees (are : Words limits words) (finds : FindsFirst memchr2) (size : ℕ)
    (rest : Bytes) (short : rest.length ≤ size) (state : State) {total read : ℕ}
    (counted : Counted total read state.view) (room : read + rest.length < 2 ^ 64) :
    Agrees limits (scanLoop memchr2 words rest state) (scan limits rest state.view) := by
  induction size generalizing rest state read with
  | zero =>
    rw [List.length_eq_zero_iff.mp (Nat.le_zero.mp short), scanLoop_nil, scan_nil]
    exact .returned state
  | succ size ih =>
    cases inside : state.inString with
    | false =>
      have tokens : state.tokens.toNat ≤ read := counted.tokens
      have scalar : state.scalarBytes.toNat ≤ read := counted.scalar
      cases found : search JsonMemory.isOutsideSpecial rest with
      | none =>
        have plain := search_none found
        rw [scanLoop_scalar inside plain, scan_scalar inside plain]
        exact chargeScalar_agrees are state (by omega) (by omega)
      | some place =>
        obtain ⟨distance, value, after⟩ := place
        obtain ⟨run, rfl, rfl, plain, isSpecial⟩ := search_some found
        rw [List.length_append, List.length_cons] at short room
        rw [scanLoop_run inside plain isSpecial, scan_run inside plain isSpecial]
        refine (chargeScalar_agrees are state (by omega) (by omega)).bind fun between charged => ?_
        have front : Counted total (read + run.length) between.view := by
          have here := feedBytes_counted limits run counted
          rw [feedBytes_scalar inside plain, charged] at here
          exact here
        have tokens : between.tokens.toNat ≤ read + run.length := front.tokens
        have depth : between.depth.toNat ≤ read + run.length := front.depth
        refine (structural_agrees are between value (by omega) (by omega)).bind fun next shaped =>
          ?_
        have later : Counted total (read + run.length + 1) next.view := by
          have here := structural_counted limits front value
          rw [shaped] at here
          exact here
        exact ih after (by omega) next later (by omega)
    | true =>
      cases escaped : state.escaped with
      | true =>
        cases rest with
        | nil =>
          rw [scanLoop_nil, scan_nil]
          exact .returned state
        | cons byte rest =>
          rw [scanLoop_escaped inside escaped, scan_escaped inside escaped]
          rw [List.length_cons] at short room
          exact ih rest (by omega) { state with escaped := false }
            ⟨counted.raw, counted.tokens, counted.depth, counted.peak, counted.scalar⟩ (by omega)
      | false =>
        cases found : search isStringSpecial rest with
        | none =>
          have plain := search_none found
          rw [scanLoop_string finds inside escaped plain, scan_string inside escaped plain]
          exact .returned state
        | some place =>
          obtain ⟨distance, value, after⟩ := place
          obtain ⟨run, rfl, rfl, plain, isSpecial⟩ := search_some found
          rw [List.length_append, List.length_cons] at short room
          have either : value = 0x22 ∨ value = 0x5C := by
            simpa [isStringSpecial] using isSpecial
          rcases either with rfl | rfl
          · rw [scanLoop_quote finds inside escaped plain, scan_quote inside escaped plain]
            exact ih after (by omega) { state with inString := false }
              ⟨counted.raw, counted.tokens, counted.depth, counted.peak, counted.scalar⟩ (by omega)
          cases after with
          | nil =>
            rw [scanLoop_backslash_end finds inside escaped plain,
              scan_backslash_end inside escaped plain]
            exact .returned { state with escaped := true }
          | cons byte behind =>
            rw [scanLoop_backslash finds inside escaped plain, scan_backslash inside escaped plain]
            rw [List.length_cons] at short room
            exact ih behind (by omega) state counted (by omega)

/-- What the estimator makes of an answer of the scanner. -/
def report (limits : JsonMemory.Limits) (words : Limits) (answer : Except ScanError Unit × State) :
    Except FeedError ℕ × ScanState :=
  (nativeOutcome limits (resultTuple words answer), answer.2.view)

theorem report_raised (reason : ComplexityReason) (phase : TriggerPhase) (state : State) :
    report limits words (.error ⟨errorCode reason, phaseCode phase⟩, state) =
      ((raiseComplexity limits reason phase state.view).1.mapError FeedError.complexity,
        state.view) := by
  cases reason <;> cases phase <;> rfl

theorem report_returned (are : Words limits words) {state : State}
    (light : state.view.estimatedBytes limits ≤ limits.maxEstimatedBytes) :
    report limits words (.ok (), state) = (.ok (state.view.estimatedBytes limits), state.view) := by
  have known : (resultTuple words (.ok (), state)).estimatedBytes =
      state.view.estimatedBytes limits := by
    show (state.estimatedBytes words).getD _ = _
    rw [estimated_view are light]
    rfl
  have returned : nativeOutcome limits (resultTuple words (.ok (), state)) =
      .ok (resultTuple words (.ok (), state)).estimatedBytes := rfl
  rw [report, returned, known]

/-- **A chunk** does to the native scanner what it does to the other one. -/
theorem report_scanJsonChunk (are : Words limits words) (finds : FindsFirst memchr2) (chunk : Bytes)
    (state : State) (counted : Counted state.rawBytes.toNat state.rawBytes.toNat state.view)
    (room : state.rawBytes.toNat + chunk.length < 2 ^ 64) :
    report limits words (scanJsonChunk memchr2 words chunk state) =
      feedPlain limits chunk state.view := by
  obtain ⟨chunkLen, isWord, same⟩ :=
    tryFrom_of_lt (Nat.lt_of_le_of_lt (Nat.le_add_left chunk.length _) room)
  obtain ⟨charged, isCharged⟩ : ∃ charged : State,
    { state with rawBytes := saturatingAdd state.rawBytes chunkLen } = charged := ⟨_, rfl⟩
  have sameView : charged.view =
      { state.view with rawBytes := state.view.rawBytes + chunk.length } := by
    rw [← isCharged]
    show { state.view with rawBytes := (saturatingAdd state.rawBytes chunkLen).toNat } = _
    have sum : (saturatingAdd state.rawBytes chunkLen).toNat =
        state.rawBytes.toNat + chunk.length := by
      rw [toNat_saturatingAdd, same]
      exact Nat.min_eq_left (Nat.le_sub_one_of_lt room)
    rw [sum]
    rfl
  unfold feedPlain feedPython scanJsonChunk
  rw [isWord]
  dsimp only
  rw [isCharged, ← sameView]
  by_cases heavy : limits.maxEstimatedBytes < charged.view.estimatedBytes limits
  · rw [if_pos heavy, if_pos ((exceeds_iff are charged).mpr heavy)]
    exact report_raised .maxEstimatedBytes .chunkRawCharge charged
  rw [if_neg heavy, if_neg fun exceeds => heavy ((exceeds_iff are charged).mp exceeds)]
  have known : Counted charged.rawBytes.toNat state.rawBytes.toNat charged.view := by
    rw [← isCharged]
    exact ⟨rfl, counted.tokens, counted.depth, counted.peak, counted.scalar⟩
  have agrees := scanLoop_agrees are finds chunk.length chunk (Nat.le_refl _) charged known room
  have light : ∀ after, scan limits chunk charged.view = (.ok (), after) →
      after.estimatedBytes limits ≤ limits.maxEstimatedBytes := by
    intro after scanned
    rw [scan_eq_feedBytes chunk.length chunk (Nat.le_refl _)] at scanned
    exact feedBytes_light (Nat.le_of_not_gt heavy) scanned
  generalize scanLoop memchr2 words chunk charged = native at agrees
  generalize scan limits chunk charged.view = python at agrees light
  cases agrees with
  | returned after => exact report_returned are (light after.view rfl)
  | raised reason phase after => exact report_raised reason phase after

theorem feedPlain_counted (limits : JsonMemory.Limits) (chunk : Bytes) {state : ScanState}
    (counted : Counted state.rawBytes state.rawBytes state) :
    Counted (state.rawBytes + chunk.length) (state.rawBytes + chunk.length)
      (feedPlain limits chunk state).2 := by
  have charged : Counted (state.rawBytes + chunk.length) state.rawBytes
      { state with rawBytes := state.rawBytes + chunk.length } :=
    ⟨rfl, counted.tokens, counted.depth, counted.peak, counted.scalar⟩
  have scanned := feedBytes_counted limits chunk charged
  rw [← scan_eq_feedBytes chunk.length chunk (Nat.le_refl _)] at scanned
  unfold feedPlain feedPython
  dsimp only
  split
  · exact charged.mono (Nat.le_add_right _ _)
  · generalize scan limits chunk _ = result at scanned
    rcases result with ⟨_ | _, after⟩
    · exact scanned
    · exact scanned

end Agreement

end Native

/-! ### Chunks -/

/-- **No counter has reached** `2 ^ 64`. -/
structure InWords (state : ScanState) : Prop where
  rawBytes : state.rawBytes < 2 ^ 64
  tokens : state.tokens < 2 ^ 64
  depth : state.depth < 2 ^ 64
  peakDepth : state.peakDepth < 2 ^ 64
  scalarBytes : state.scalarBytes < 2 ^ 64

/-- The states behind the chunks have no counter that reaches `2 ^ 64`. -/
def StaysInWords (limits : Limits) (chunks : List Bytes) (state : ScanState) : Prop :=
  ∀ entry ∈ trace (feedPlain limits) chunks state, InWords entry.2

section Chunks

variable {limits : Limits} {words : Native.Limits} {memchr2 : UInt8 → UInt8 → Bytes → Option ℕ}

open Native (Counted report)

/-- **A chunk**, and what is known of the rest behind it. -/
theorem chunk_report (are : Native.Words limits words) (finds : Native.FindsFirst memchr2)
    {chunk : Bytes} {rest : List Bytes} {state : Native.State}
    (counted : Counted state.rawBytes.toNat state.rawBytes.toNat state.view)
    (stays : StaysInWords limits (chunk :: rest) state.view) :
    ∃ after, (Native.scanJsonChunk memchr2 words chunk state).2 = after ∧
      report limits words (Native.scanJsonChunk memchr2 words chunk state) =
        feedPlain limits chunk state.view ∧
      (feedPlain limits chunk state.view).2 = after.view ∧
      Counted after.rawBytes.toNat after.rawBytes.toNat after.view ∧
      StaysInWords limits rest after.view := by
  have start : Counted state.view.rawBytes state.view.rawBytes state.view := counted
  have known : Counted (state.rawBytes.toNat + chunk.length) (state.rawBytes.toNat + chunk.length)
      (feedPlain limits chunk state.view).2 := Native.feedPlain_counted limits chunk start
  have room : state.rawBytes.toNat + chunk.length < 2 ^ 64 :=
    known.raw ▸ (stays _ List.mem_cons_self).rawBytes
  have same := Native.report_scanJsonChunk are finds chunk state counted room
  obtain ⟨after, isAfter⟩ : ∃ after, (Native.scanJsonChunk memchr2 words chunk state).2 = after :=
    ⟨_, rfl⟩
  have sameState : (feedPlain limits chunk state.view).2 = after.view := by
    rw [← isAfter]
    exact (congrArg Prod.snd same).symm
  rw [sameState] at known
  have raw : after.rawBytes.toNat = state.rawBytes.toNat + chunk.length := known.raw
  rw [← raw] at known
  refine ⟨after, isAfter, same, sameState, known, fun entry there => ?_⟩
  rw [← sameState] at there
  exact stays entry (List.mem_cons_of_mem _ there)

/-- **Chunks** do to the native scanner what they do to the other one. -/
theorem trace_report (are : Native.Words limits words) (finds : Native.FindsFirst memchr2)
    (chunks : List Bytes) (state : Native.State)
    (counted : Counted state.rawBytes.toNat state.rawBytes.toNat state.view)
    (stays : StaysInWords limits chunks state.view) :
    (trace (Native.scanJsonChunk memchr2 words) chunks state).map (report limits words) =
      trace (feedPlain limits) chunks state.view := by
  induction chunks generalizing state with
  | nil => rfl
  | cons chunk rest ih =>
    obtain ⟨after, isAfter, same, sameState, known, later⟩ := chunk_report are finds counted stays
    rw [trace, trace, List.map_cons, same, isAfter, sameState]
    exact congrArg (List.cons _) (ih after known later)

theorem trace_plain (chunks : List Bytes) (state : ScanState) :
    (trace (feed memchr2 limits) chunks ⟨state, false⟩).map
      (fun entry => (entry.1, entry.2.state)) =
      trace (feedPlain limits) chunks state := by
  induction chunks generalizing state with
  | nil => rfl
  | cons chunk rest ih => exact congrArg (List.cons _) (ih _)

/-- **The estimator** with the extension does what it does without. -/
theorem trace_native (isWord : Native.Limits.of limits = some words)
    (finds : Native.FindsFirst memchr2) (chunks : List Bytes) (state : Native.State)
    (counted : Counted state.rawBytes.toNat state.rawBytes.toNat state.view)
    (stays : StaysInWords limits chunks state.view) :
    (trace (feed memchr2 limits) chunks ⟨state.view, true⟩).map
        (fun entry => (entry.1, entry.2.state)) =
      trace (feedPlain limits) chunks state.view := by
  induction chunks generalizing state with
  | nil => rfl
  | cons chunk rest ih =>
    obtain ⟨after, isAfter, same, sameState, known, later⟩ :=
      chunk_report (Native.words_of isWord) finds counted stays
    have sameEntry : ((feedPlain limits chunk state.view).1, after.view) =
        feedPlain limits chunk state.view := Prod.ext rfl sameState.symm
    have answer : Native.scanJsonMemoryChunk memchr2 chunk limits state.view =
        if (state.estimatedBytes words).isNone then none
        else some (Native.resultTuple words (Native.scanJsonChunk memchr2 words chunk state)) := by
      rw [Native.scanJsonMemoryChunk, isWord, Native.of_view]
      rfl
    by_cases overflows : (state.estimatedBytes words).isNone = true
    · -- the extension refuses the arguments, and is not asked again
      have fed : feed memchr2 limits chunk ⟨state.view, true⟩ =
          ((feedPlain limits chunk state.view).1, ⟨after.view, false⟩) := by
        show feedNative memchr2 limits chunk ⟨state.view, true⟩ = _
        rw [feedNative, answer, if_pos overflows, ← sameState]
      rw [trace, trace, List.map_cons, fed, sameState]
      exact congrArg₂ List.cons sameEntry (trace_plain rest _)
    · have fed : feed memchr2 limits chunk ⟨state.view, true⟩ =
          ((feedPlain limits chunk state.view).1, ⟨after.view, true⟩) := by
        show feedNative memchr2 limits chunk ⟨state.view, true⟩ = _
        rw [feedNative, answer, if_neg overflows, ← same, ← isAfter]
        rfl
      rw [trace, trace, List.map_cons, fed, sameState]
      exact congrArg₂ List.cons sameEntry (ih after known later)

theorem staysInWords_of_length (chunks : List Bytes) {state : ScanState}
    (counted : Counted state.rawBytes state.rawBytes state)
    (short : state.rawBytes + chunks.flatten.length < 2 ^ 64) :
    StaysInWords limits chunks state := by
  induction chunks generalizing state with
  | nil =>
    intro entry there
    cases there
  | cons chunk rest ih =>
    rw [List.flatten_cons, List.length_append, ← Nat.add_assoc] at short
    have known := Native.feedPlain_counted limits chunk counted
    have below : state.rawBytes + chunk.length < 2 ^ 64 :=
      Nat.lt_of_le_of_lt (Nat.le_add_right _ _) short
    have raw := known.raw
    refine List.forall_mem_cons.mpr ⟨?_, ih (raw.symm ▸ known) (raw.symm ▸ short)⟩
    exact ⟨raw ▸ below, known.tokens.trans_lt below, known.depth.trans_lt below,
      known.peak.trans_lt below, known.scalar.trans_lt below⟩

/-- The state of the extension at the start. -/
def nativeStart : Native.State := ⟨0, 0, 0, 0, false, false, false, 0⟩

theorem nativeStart_counted : Counted 0 0 nativeStart.view :=
  ⟨rfl, Nat.le_refl 0, Nat.le_refl 0, Nat.le_refl 0, Nat.le_refl 0⟩

/-- An estimator that uses the extension has limits that are words. -/
theorem words_of_enabled {useNative : Bool}
    (enabled : (Estimator.new limits useNative).nativeEnabled = true) :
    ∃ words, Native.Limits.of limits = some words := by
  have all := (Bool.and_eq_true_iff.mp enabled).2
  have small : ∀ value ∈ [limits.rawMemoryMultiplier, limits.tokenMemoryBytes, limits.maxDepth,
      limits.maxScalarBytes, limits.maxEstimatedBytes], value < 2 ^ 64 := fun value there =>
    Nat.lt_of_le_sub_one (by decide) (of_decide_eq_true (List.all_eq_true.mp all value there))
  obtain ⟨raw, isRaw, -⟩ := Native.tryFrom_of_lt (small limits.rawMemoryMultiplier (by simp))
  obtain ⟨token, isToken, -⟩ := Native.tryFrom_of_lt (small limits.tokenMemoryBytes (by simp))
  obtain ⟨depth, isDepth, -⟩ := Native.tryFrom_of_lt (small limits.maxDepth (by simp))
  obtain ⟨scalar, isScalar, -⟩ := Native.tryFrom_of_lt (small limits.maxScalarBytes (by simp))
  obtain ⟨estimate, isEstimate, -⟩ :=
    Native.tryFrom_of_lt (small limits.maxEstimatedBytes (by simp))
  refine ⟨⟨raw, token, depth, scalar, estimate⟩, ?_⟩
  rw [Native.Limits.of, isRaw, isToken, isDepth, isScalar, isEstimate]
  rfl

/-- **The estimator** does the same, whether it uses the extension or not. -/
theorem estimator_agrees (finds : Native.FindsFirst memchr2) (chunks : List Bytes)
    (stays : StaysInWords limits chunks {}) (useNative : Bool) :
    (trace (feed memchr2 limits) chunks (Estimator.new limits useNative)).map
        (fun entry => (entry.1, entry.2.state)) =
      trace (feedPlain limits) chunks {} := by
  cases enabled : (Estimator.new limits useNative).nativeEnabled with
  | false =>
    have start : Estimator.new limits useNative = ⟨{}, false⟩ := congrArg (Estimator.mk {}) enabled
    rw [start]
    exact trace_plain chunks {}
  | true =>
    obtain ⟨words, isWord⟩ := words_of_enabled enabled
    have start : Estimator.new limits useNative = ⟨nativeStart.view, true⟩ :=
      congrArg (Estimator.mk {}) enabled
    rw [start]
    exact trace_native isWord finds chunks nativeStart nativeStart_counted stays

/-- **The native scanner and the Python scanner agree**: for limits that are words and any chunks,
as long as no counter reaches `2 ^ 64`, every chunk leaves the same counters and flags, and returns
the same estimate or raises the same error. So does the estimator, whichever it uses. -/
theorem native_agrees (finds : Native.FindsFirst memchr2)
    (isWord : Native.Limits.of limits = some words) (chunks : List Bytes)
    (stays : StaysInWords limits chunks {}) (useNative : Bool) :
    (trace (Native.scanJsonChunk memchr2 words) chunks nativeStart).map (report limits words) =
        trace (feedPlain limits) chunks {} ∧
      (trace (feed memchr2 limits) chunks (Estimator.new limits useNative)).map
          (fun entry => (entry.1, entry.2.state)) =
        trace (feedPlain limits) chunks {} :=
  ⟨trace_report (Native.words_of isWord) finds chunks nativeStart nativeStart_counted stays,
    estimator_agrees finds chunks stays useNative⟩

/-- Two chunks with a string across them, and a search that looks at one byte after the other. -/
theorem native_agrees_object :
    (trace (Native.scanJsonChunk
          (fun first second haystack => haystack.findIdx? fun byte => byte == first || byte ==
            second)
          ⟨5, 1024, 128, 4096, 268435456⟩) [[0x7B, 0x22, 0x61], [0x22, 0x3A, 0x31, 0x7D]]
        nativeStart).map
        (report ⟨5, 1024, 128, 4096, 268435456, by decide, by decide⟩
          ⟨5, 1024, 128, 4096, 268435456⟩) =
      trace (feedPlain ⟨5, 1024, 128, 4096, 268435456, by decide, by decide⟩)
        [[0x7B, 0x22, 0x61], [0x22, 0x3A, 0x31, 0x7D]] {} :=
  (native_agrees (fun _ _ _ => rfl) rfl _
    (staysInWords_of_length _ ⟨rfl, Nat.le_refl 0, Nat.le_refl 0, Nat.le_refl 0, Nat.le_refl 0⟩
      (by decide)) true).1

end Chunks

end UniApi.Admission.JsonMemory
