/-
**The native scanner of the JSON memory estimator.**

With the Rust extension, `_feed_native` lets it scan a chunk and raises what the error code of the
answer means. The extension counts in `u64`, saturating, estimates in `u128`, and skips with
`memchr2` and `position`.

* `scanJsonChunk`: the scanner of the extension;
* `feedNative`, `feed`: the estimator that uses it;
* `Words`: limits that are words.
-/

import Mathlib.Algebra.Order.Ring.Int
import UniApi.Admission.JsonMemory

namespace UniApi.Admission.JsonMemory

open UniApi.Lib

namespace Native

/-! ### The extension -/

def errorNone : UInt8 := 0
def errorMaxDepth : UInt8 := 1
def errorMaxScalarBytes : UInt8 := 2
def errorMaxEstimatedBytes : UInt8 := 3

def phaseNone : UInt8 := 0
def phaseChunkRawCharge : UInt8 := 1
def phaseStructuralItemScan : UInt8 := 2
def phaseDepthScan : UInt8 := 3
def phaseScalarScan : UInt8 := 4

/-- `u64::MAX`. -/
def wordMax : UInt64 := 0xFFFFFFFFFFFFFFFF

/-- `u64::saturating_add`. -/
def saturatingAdd (first second : UInt64) : UInt64 :=
  if first.toNat + second.toNat < 2 ^ 64 then first + second else wordMax

/-- `u64::saturating_sub`. -/
def saturatingSub (first second : UInt64) : UInt64 :=
  if second ≤ first then first - second else 0

/-- `u64::try_from`. -/
def tryFrom (value : ℕ) : Option UInt64 :=
  if small : value < 2 ^ 64 then some (UInt64.ofNatLT value small) else none

structure Limits where
  rawMemoryMultiplier : UInt64
  tokenMemoryBytes : UInt64
  maxDepth : UInt64
  maxScalarBytes : UInt64
  maxEstimatedBytes : UInt64

structure State where
  rawBytes : UInt64
  tokens : UInt64
  depth : UInt64
  peakDepth : UInt64
  inString : Bool
  escaped : Bool
  scalarActive : Bool
  scalarBytes : UInt64
  deriving DecidableEq

structure ScanError where
  code : UInt8
  phase : UInt8
  deriving DecidableEq

namespace State

/-- In `u128`, unless it overflows. -/
def estimatedBytes (state : State) (limits : Limits) : Option ℕ :=
  let raw := state.rawBytes.toNat * limits.rawMemoryMultiplier.toNat
  let structural := state.tokens.toNat * limits.tokenMemoryBytes.toNat
  if raw + structural < 2 ^ 128 then some (raw + structural) else none

def exceedsEstimatedLimit (state : State) (limits : Limits) : Bool :=
  ((state.estimatedBytes limits).map fun value =>
    decide (limits.maxEstimatedBytes.toNat < value)).getD true

def finishScalar (state : State) : State :=
  { state with scalarActive := false, scalarBytes := 0 }

end State

abbrev Call := Raise ScanError State Unit

def isOutsideSpecial (value : UInt8) : Bool :=
  [0x22, 0x7B, 0x7D, 0x5B, 0x5D, 0x20, 0x09, 0x0A, 0x0D, 0x2C, 0x3A].contains value

section Scanner

variable (memchr2 : UInt8 → UInt8 → Bytes → Option ℕ) (limits : Limits)

def countToken : Call := fun state =>
  let state := { state with tokens := saturatingAdd state.tokens 1 }
  if state.exceedsEstimatedLimit limits then
    (.error ⟨errorMaxEstimatedBytes, phaseStructuralItemScan⟩, state)
  else (.ok (), state)

/-- The first byte of a scalar. -/
def startScalar : Call := fun state =>
  if state.scalarActive then (.ok (), state)
  else countToken limits { state with scalarActive := true, scalarBytes := 0 }

/-- The bytes of a scalar are charged. -/
def growScalar (length : ℕ) : Call := fun state =>
  let runLength := (tryFrom length).getD wordMax
  let scalarBytes := saturatingAdd state.scalarBytes runLength
  if limits.maxScalarBytes < scalarBytes then
    (.error ⟨errorMaxScalarBytes, phaseScalarScan⟩,
      { state with scalarBytes := saturatingAdd limits.maxScalarBytes 1 })
  else (.ok (), { state with scalarBytes := scalarBytes })

/-- A run of scalar bytes outside strings. -/
def chargeScalar (length : ℕ) : Call :=
  if 0 < length then do
    startScalar limits
    growScalar limits length
  else pure ()

/-- A byte of structure outside strings. -/
def structural (value : UInt8) : Call := fun state =>
  if value = 0x22 then
    match countToken limits state.finishScalar with
    | (.error error, state) => (.error error, state)
    | (.ok (), state) => (.ok (), { state with inString := true })
  else if value = 0x7B ∨ value = 0x5B then
    match countToken limits state.finishScalar with
    | (.error error, state) => (.error error, state)
    | (.ok (), state) =>
      let state := { state with depth := saturatingAdd state.depth 1 }
      let state := { state with peakDepth := max state.peakDepth state.depth }
      if limits.maxDepth < state.depth then (.error ⟨errorMaxDepth, phaseDepthScan⟩, state)
      else (.ok (), state)
  else if value = 0x7D ∨ value = 0x5D then
    let state := state.finishScalar
    (.ok (), { state with depth := saturatingSub state.depth 1 })
  else (.ok (), state.finishScalar)

/-- The loop of `scan_json_chunk`, over what is left of the chunk. -/
def scanLoop (rest : Bytes) : Call := fun state =>
  if rest.isEmpty then (.ok (), state)
  else if state.inString then
    if state.escaped then scanLoop rest.tail { state with escaped := false }
    else
      match memchr2 0x22 0x5C rest with
      | none => (.ok (), state)
      | some relative =>
        match _here : rest.drop relative with
        -- a position inside of the chunk
        | [] => (.ok (), state)
        | value :: after =>
          if value = 0x5C then
            match after with
            | [] => (.ok (), { state with escaped := true })
            | _ :: behind => scanLoop behind state
          else scanLoop after { state with inString := false }
  else
    let runEnd := (rest.findIdx? isOutsideSpecial).getD rest.length
    match chargeScalar limits runEnd state with
    | (.error error, state) => (.error error, state)
    | (.ok (), state) =>
      match _here : rest.drop runEnd with
      | [] => (.ok (), state)
      | value :: after =>
        match structural limits value state with
        | (.error error, state) => (.error error, state)
        | (.ok (), state) => scanLoop after state
termination_by rest.length
decreasing_by
  · cases rest with
    | nil => simp_all
    | cons head tail => exact Nat.lt_succ_self _
  all_goals
    have shorter := congrArg List.length _here
    simp only [List.length_drop, List.length_cons] at shorter
    omega

/-- `scan_json_chunk`. -/
def scanJsonChunk (bytes : Bytes) : Call := fun state =>
  match tryFrom bytes.length with
  | none => (.error ⟨errorMaxEstimatedBytes, phaseChunkRawCharge⟩, state)
  | some chunkLen =>
    let state := { state with rawBytes := saturatingAdd state.rawBytes chunkLen }
    if state.exceedsEstimatedLimit limits then
      (.error ⟨errorMaxEstimatedBytes, phaseChunkRawCharge⟩, state)
    else scanLoop memchr2 limits bytes state

end Scanner

structure NativeResult where
  errorCode : UInt8
  phaseCode : UInt8
  state : State
  estimatedBytes : ℕ

/-- `result_tuple`. -/
def resultTuple (limits : Limits) (outcome : Except ScanError Unit × State) : NativeResult :=
  let error : ScanError :=
    match outcome.1 with
    | .ok () => ⟨errorNone, phaseNone⟩
    | .error error => error
  { errorCode := error.code
    phaseCode := error.phase
    state := outcome.2
    estimatedBytes := (outcome.2.estimatedBytes limits).getD (2 ^ 128 - 1) }

/-! ### The estimator -/

/-- The limits as words, if they are. -/
def Limits.of (limits : JsonMemory.Limits) : Option Limits := do
  return {
    rawMemoryMultiplier := ← tryFrom limits.rawMemoryMultiplier
    tokenMemoryBytes := ← tryFrom limits.tokenMemoryBytes
    maxDepth := ← tryFrom limits.maxDepth
    maxScalarBytes := ← tryFrom limits.maxScalarBytes
    maxEstimatedBytes := ← tryFrom limits.maxEstimatedBytes }

/-- The counters as words, if they are. -/
def State.of (state : ScanState) : Option State := do
  return {
    rawBytes := ← tryFrom state.rawBytes
    tokens := ← tryFrom state.tokens
    depth := ← tryFrom state.depth
    peakDepth := ← tryFrom state.peakDepth
    inString := state.inString
    escaped := state.escaped
    scalarActive := state.scalarActive
    scalarBytes := ← tryFrom state.scalarBytes }

/-- The counters, as the estimator keeps them. -/
def State.view (state : State) : ScanState where
  rawBytes := state.rawBytes.toNat
  tokens := state.tokens.toNat
  depth := state.depth.toNat
  peakDepth := state.peakDepth.toNat
  inString := state.inString
  escaped := state.escaped
  scalarActive := state.scalarActive
  scalarBytes := state.scalarBytes.toNat

/-- `scan_json_memory_chunk`, which raises `OverflowError` if an argument is no word or the estimate
has overflowed. -/
def scanJsonMemoryChunk (memchr2 : UInt8 → UInt8 → Bytes → Option ℕ) (chunk : Bytes)
    (limits : JsonMemory.Limits) (state : ScanState) : Option NativeResult := do
  let limits ← Limits.of limits
  let state ← State.of state
  if (state.estimatedBytes limits).isNone then none
  else some (resultTuple limits (scanJsonChunk memchr2 limits chunk state))

end Native

/-- What feeding a chunk raises. -/
inductive FeedError where
  | complexity (error : ComplexityError)
  | runtime (message : String)
  deriving DecidableEq

/-- The trigger phases of the extension. -/
def triggerPhase (code : UInt8) : Option TriggerPhase :=
  [((1 : UInt8), TriggerPhase.chunkRawCharge), (2, .structuralItemScan), (3, .depthScan),
    (4, .scalarScan)].lookup code

/-- What an answer of the extension means. -/
def nativeOutcome (limits : Limits) (result : Native.NativeResult) : Except FeedError ℕ :=
  let raises (reason : ComplexityReason) (phase : TriggerPhase) : Except FeedError ℕ :=
    (raiseComplexity limits reason phase result.state.view).1.mapError .complexity
  if result.errorCode = 0 then .ok result.estimatedBytes
  else
    match triggerPhase result.phaseCode with
    | none => .error (.runtime ("native JSON guard returned phase " ++ toString result.phaseCode))
    | some phase =>
      if result.errorCode = 1 then raises .maxDepth phase
      else if result.errorCode = 2 then raises .maxScalarBytes phase
      else if result.errorCode = 3 then raises .maxEstimatedBytes phase
      else .error (.runtime ("native JSON guard returned error " ++ toString result.errorCode))

/-- An estimator. -/
structure Estimator where
  state : ScanState := {}
  nativeEnabled : Bool

section Feed

variable (memchr2 : UInt8 → UInt8 → Bytes → Option ℕ) (limits : Limits)

/-- `_feed_python`, as one of the ways to feed. -/
def feedPlain (chunk : Bytes) : Raise FeedError ScanState ℕ := fun state =>
  let (outcome, after) := feedPython limits chunk state
  (outcome.mapError .complexity, after)

/-- `_feed_native`. -/
def feedNative (chunk : Bytes) : Raise FeedError Estimator ℕ := fun estimator =>
  match Native.scanJsonMemoryChunk memchr2 chunk limits estimator.state with
  | none =>
    let (outcome, after) := feedPlain limits chunk estimator.state
    (outcome, { state := after, nativeEnabled := false })
  | some result =>
    (nativeOutcome limits result, { estimator with state := result.state.view })

/-- `feed`. -/
def feed (chunk : Bytes) : Raise FeedError Estimator ℕ := fun estimator =>
  if estimator.nativeEnabled then feedNative memchr2 limits chunk estimator
  else
    let (outcome, after) := feedPlain limits chunk estimator.state
    (outcome, { estimator with state := after })

/-- A new estimator, where the extension is there and asked for or not. -/
def Estimator.new (useNative : Bool) : Estimator where
  nativeEnabled := useNative && [limits.rawMemoryMultiplier, limits.tokenMemoryBytes,
    limits.maxDepth, limits.maxScalarBytes, limits.maxEstimatedBytes].all (· ≤ 2 ^ 64 - 1)

end Feed

/-- Chunks one after the other, whether they raise or not: each outcome, and the state behind it. -/
def trace {ε σ α : Type} (feed : Bytes → Raise ε σ α) : List Bytes → σ → List (Except ε α × σ)
  | [], _ => []
  | chunk :: rest, state => feed chunk state :: trace feed rest (feed chunk state).2

/-! ### Words -/

namespace Native

theorem toNat_wordMax : wordMax.toNat = 2 ^ 64 - 1 := by decide

theorem toNat_saturatingAdd (first second : UInt64) :
    (saturatingAdd first second).toNat = min (first.toNat + second.toNat) (2 ^ 64 - 1) := by
  unfold saturatingAdd
  split
  · rename_i small
    rw [UInt64.toNat_add, Nat.mod_eq_of_lt small]
    omega
  · rw [toNat_wordMax]
    omega

theorem toNat_saturatingSub (first second : UInt64) :
    (saturatingSub first second).toNat = first.toNat - second.toNat := by
  unfold saturatingSub
  split
  · rename_i below
    exact UInt64.toNat_sub_of_le first second below
  · rename_i above
    rw [UInt64.le_iff_toNat_le] at above
    show 0 = _
    omega

theorem toNat_max (first second : UInt64) : (max first second).toNat = max first.toNat
    second.toNat := by
  show (if first ≤ second then second else first).toNat = _
  split
  · rename_i below
    rw [UInt64.le_iff_toNat_le] at below
    omega
  · rename_i above
    rw [UInt64.le_iff_toNat_le] at above
    omega

theorem tryFrom_some {value : ℕ} {word : UInt64} (isWord : tryFrom value = some word) :
    word.toNat = value := by
  unfold tryFrom at isWord
  split at isWord
  · cases isWord
    exact UInt64.toNat_ofNatLT ..
  · cases isWord

theorem tryFrom_toNat (word : UInt64) : tryFrom word.toNat = some word := by
  rw [tryFrom, dif_pos word.toNat_lt]
  exact congrArg some (UInt64.ofNatLT_toNat word)

theorem tryFrom_of_lt {value : ℕ} (small : value < 2 ^ 64) :
    ∃ word, tryFrom value = some word ∧ word.toNat = value :=
  ⟨_, dif_pos small, UInt64.toNat_ofNatLT ..⟩

theorem of_view (state : State) : State.of state.view = some state := by
  unfold State.of State.view
  simp only [tryFrom_toNat]
  rfl

/-- **The limits are words.** -/
structure Words (limits : JsonMemory.Limits) (words : Limits) : Prop where
  raw : words.rawMemoryMultiplier.toNat = limits.rawMemoryMultiplier
  token : words.tokenMemoryBytes.toNat = limits.tokenMemoryBytes
  depth : words.maxDepth.toNat = limits.maxDepth
  scalar : words.maxScalarBytes.toNat = limits.maxScalarBytes
  estimate : words.maxEstimatedBytes.toNat = limits.maxEstimatedBytes

theorem words_of {limits : JsonMemory.Limits} {words : Limits} (are : Limits.of limits = some
    words) :
    Words limits words := by
  obtain ⟨raw, isRaw, are⟩ := Option.bind_eq_some_iff.mp are
  obtain ⟨token, isToken, are⟩ := Option.bind_eq_some_iff.mp are
  obtain ⟨depth, isDepth, are⟩ := Option.bind_eq_some_iff.mp are
  obtain ⟨scalar, isScalar, are⟩ := Option.bind_eq_some_iff.mp are
  obtain ⟨estimate, isEstimate, are⟩ := Option.bind_eq_some_iff.mp are
  cases are
  exact ⟨tryFrom_some isRaw, tryFrom_some isToken, tryFrom_some isDepth, tryFrom_some isScalar,
    tryFrom_some isEstimate⟩

end Native

end UniApi.Admission.JsonMemory
