/-
**The JSON memory estimator of the admission control.**

`IncrementalJSONMemoryEstimator` reads the chunks of a JSON document and counts its tokens and its
depth, without keeping the document. It charges the raw bytes of a chunk before it scans it, skips
through strings and runs of scalar bytes, and raises as soon as a limit is exceeded.

* `scan`: the loop over a chunk, with its skips;
* `estimateJsonMemoryBytes`: one document in one chunk.
-/

import Mathlib.Data.List.Infix
import UniApi.Lib.Raise
import UniApi.Lib.Utf8

namespace UniApi.Admission.JsonMemory

open UniApi.Lib

/-! ### The estimator -/

inductive ComplexityReason where
  | maxDepth
  | maxScalarBytes
  | maxEstimatedBytes
  deriving DecidableEq

inductive TriggerPhase where
  | chunkRawCharge
  | structuralItemScan
  | depthScan
  | scalarScan
  deriving DecidableEq

/-- What an estimator is made with: only positive values. -/
structure Limits where
  rawMemoryMultiplier : Nat
  tokenMemoryBytes : Nat
  maxDepth : Nat
  maxScalarBytes : Nat
  maxEstimatedBytes : Nat
  weights_pos : 0 < rawMemoryMultiplier ∧ 0 < tokenMemoryBytes
  limits_pos : 0 < maxDepth ∧ 0 < maxScalarBytes ∧ 0 < maxEstimatedBytes

/-- What an estimator keeps. -/
structure ScanState where
  rawBytes : Nat := 0
  tokens : Nat := 0
  depth : Nat := 0
  peakDepth : Nat := 0
  inString : Bool := false
  escaped : Bool := false
  scalarActive : Bool := false
  scalarBytes : Nat := 0
  deriving DecidableEq

structure ComplexityObservation where
  schemaVersion : Nat
  reason : ComplexityReason
  triggerPhase : TriggerPhase
  rawBytes : Nat
  structuralItemCount : Nat
  depth : Nat
  peakDepth : Nat
  scalarBytes : Nat
  estimatedBytes : Nat
  configuredLimit : Nat
  maxDepth : Nat
  maxScalarBytes : Nat
  maxEstimatedBytes : Nat
  rawMemoryMultiplier : Nat
  structuralItemMemoryBytes : Nat
  deriving DecidableEq

structure ComplexityError where
  message : String
  observation : ComplexityObservation
  deriving DecidableEq

/-- The bytes a string ends or escapes with. -/
def isStringSpecial (byte : UInt8) : Bool := byte == 0x22 || byte == 0x5C

/-- The bytes that are structure, or end a scalar. -/
def isOutsideSpecial (byte : UInt8) : Bool :=
  byte == 0x22 || byte == 0x7B || byte == 0x7D || byte == 0x5B || byte == 0x5D || byte == 0x20 ||
    byte == 0x09 || byte == 0x0A || byte == 0x0D || byte == 0x2C || byte == 0x3A

/-- `pattern.search(buffer, position)`, on what is left of the buffer: how far away the match is,
the byte found, and what is behind it. -/
def search (special : UInt8 → Bool) : Bytes → Option (Nat × UInt8 × Bytes)
  | [] => none
  | head :: rest =>
    if special head then some (0, head, rest)
    else (search special rest).map fun (distance, value, after) => (distance + 1, value, after)

theorem search_some {special : UInt8 → Bool} {rest after : Bytes} {distance : Nat} {value : UInt8}
    (found : search special rest = some (distance, value, after)) :
    ∃ run, rest = run ++ value :: after ∧ run.length = distance ∧
      (∀ byte ∈ run, special byte = false) ∧
      special value = true := by
  induction rest generalizing distance with
  | nil => cases found
  | cons head rest ih =>
    unfold search at found
    split at found
    · rename_i isSpecial
      cases found
      exact ⟨[], rfl, rfl, nofun, isSpecial⟩
    · rename_i plain
      obtain ⟨⟨further, other, behind⟩, foundBehind, same⟩ := Option.map_eq_some_iff.mp found
      cases same
      obtain ⟨run, rfl, rfl, plainRun, isSpecial⟩ := ih foundBehind
      exact ⟨head :: run, rfl, rfl,
        List.forall_mem_cons.mpr ⟨Bool.eq_false_iff.mpr plain, plainRun⟩, isSpecial⟩

theorem search_length {special : UInt8 → Bool} {rest after : Bytes} {distance : Nat} {value : UInt8}
    (found : search special rest = some (distance, value, after)) : after.length < rest.length := by
  obtain ⟨run, rfl, -, -, -⟩ := search_some found
  rw [List.length_append, List.length_cons]
  omega

namespace ScanState

def estimatedBytes (limits : Limits) (state : ScanState) : Nat :=
  state.rawBytes * limits.rawMemoryMultiplier + state.tokens * limits.tokenMemoryBytes

/-- `_finish_scalar`. -/
def finishScalar (state : ScanState) : ScanState :=
  { state with scalarActive := false, scalarBytes := 0 }

end ScanState

abbrev Call := Raise ComplexityError ScanState Unit

section Scanner

variable (limits : Limits)

def configuredLimit : ComplexityReason → Nat
  | .maxDepth => limits.maxDepth
  | .maxScalarBytes => limits.maxScalarBytes
  | .maxEstimatedBytes => limits.maxEstimatedBytes

def message : ComplexityReason → String
  | .maxDepth => "JSON nesting exceeds " ++ toString limits.maxDepth ++ " levels"
  | .maxScalarBytes => "JSON scalar exceeds " ++ toString limits.maxScalarBytes ++ " bytes"
  | .maxEstimatedBytes =>
    "JSON materialization estimate exceeds " ++ toString limits.maxEstimatedBytes ++ " bytes"

/-- `_raise_complexity`, with the message of its reason. -/
def raiseComplexity {α : Type} (reason : ComplexityReason) (triggerPhase : TriggerPhase) :
    Raise ComplexityError ScanState α := fun state =>
  (.error
    { message := message limits reason
      observation :=
        { schemaVersion := 1
          reason := reason
          triggerPhase := triggerPhase
          rawBytes := state.rawBytes
          structuralItemCount := state.tokens
          depth := state.depth
          peakDepth := state.peakDepth
          scalarBytes := state.scalarBytes
          estimatedBytes := state.estimatedBytes limits
          configuredLimit := configuredLimit limits reason
          maxDepth := limits.maxDepth
          maxScalarBytes := limits.maxScalarBytes
          maxEstimatedBytes := limits.maxEstimatedBytes
          rawMemoryMultiplier := limits.rawMemoryMultiplier
          structuralItemMemoryBytes := limits.tokenMemoryBytes } }, state)

/-- `_count_token`. -/
def countToken : Call := fun state =>
  let state := { state with tokens := state.tokens + 1 }
  if limits.maxEstimatedBytes < state.estimatedBytes limits then
    raiseComplexity limits .maxEstimatedBytes .structuralItemScan state
  else (.ok (), state)

/-- The first byte of a scalar. -/
def startScalar : Call := fun state =>
  if state.scalarActive then (.ok (), state)
  else countToken limits { state with scalarActive := true, scalarBytes := 0 }

/-- The bytes of a scalar are charged. -/
def growScalar (length : Nat) : Call := fun state =>
  if limits.maxScalarBytes < state.scalarBytes + length then
    raiseComplexity limits .maxScalarBytes .scalarScan
      { state with scalarBytes := limits.maxScalarBytes + 1 }
  else (.ok (), { state with scalarBytes := state.scalarBytes + length })

/-- A run of scalar bytes outside strings. -/
def chargeScalar (length : Nat) : Call :=
  if length = 0 then pure ()
  else do
    startScalar limits
    growScalar limits length

/-- A byte of structure outside strings. -/
def structural (byte : UInt8) : Call := fun state =>
  if byte = 0x22 then
    match countToken limits state.finishScalar with
    | (.error error, state) => (.error error, state)
    | (.ok (), state) => (.ok (), { state with inString := true })
  else if byte = 0x7B ∨ byte = 0x5B then
    match countToken limits state.finishScalar with
    | (.error error, state) => (.error error, state)
    | (.ok (), state) =>
      let state :=
        { state with
          depth := state.depth + 1
          peakDepth := max state.peakDepth (state.depth + 1) }
      if limits.maxDepth < state.depth then raiseComplexity limits .maxDepth .depthScan state
      else (.ok (), state)
  else if byte = 0x7D ∨ byte = 0x5D then
    (.ok (), { state.finishScalar with depth := state.depth - 1 })
  else (.ok (), state.finishScalar)

/-- The loop of `_feed_python`, over what is left of the chunk. -/
def scan (rest : Bytes) : Call := fun state =>
  if rest.isEmpty then (.ok (), state)
  else if state.inString then
    if state.escaped then scan rest.tail { state with escaped := false }
    else
      match _found : search isStringSpecial rest with
      | none => (.ok (), state)
      | some (_, value, after) =>
        if value = 0x5C then
          match after with
          | [] => (.ok (), { state with escaped := true })
          -- the escaped byte has no structural meaning
          | _ :: behind => scan behind state
        else scan after { state with inString := false }
  else
    match _found : search isOutsideSpecial rest with
    | none => chargeScalar limits rest.length state
    | some (distance, value, after) =>
      match chargeScalar limits distance state with
      | (.error error, state) => (.error error, state)
      | (.ok (), state) =>
        match structural limits value state with
        | (.error error, state) => (.error error, state)
        | (.ok (), state) => scan after state
termination_by rest.length
decreasing_by
  · cases rest with
    | nil => simp_all
    | cons head tail => exact Nat.lt_succ_self _
  · have shorter := search_length _found
    simp only [List.length_cons] at shorter
    omega
  · exact search_length _found
  · exact search_length _found

/-- `_feed_python`. -/
def feedPython (chunk : Bytes) : Raise ComplexityError ScanState Nat := fun state =>
  let state := { state with rawBytes := state.rawBytes + chunk.length }
  if limits.maxEstimatedBytes < state.estimatedBytes limits then
    raiseComplexity limits .maxEstimatedBytes .chunkRawCharge state
  else
    match scan limits chunk state with
    | (.error error, state) => (.error error, state)
    | (.ok (), state) => (.ok (state.estimatedBytes limits), state)

end Scanner

section Scan

variable {limits : Limits} {state : ScanState}

theorem scan_structural (outside : state.inString = false) {byte : UInt8}
    (isSpecial : isOutsideSpecial byte = true) (rest : Bytes) :
    scan limits (byte :: rest) state =
      (structural limits byte >>= fun _ => scan limits rest) state := by
  have here : search isOutsideSpecial (byte :: rest) = some (0, byte, rest) := if_pos isSpecial
  rw [scan, if_neg (by simp), if_neg (by simp [outside]), Raise.bind_apply]
  split
  · rename_i found
    rw [here] at found
    cases found
  · rename_i found
    rw [here] at found
    cases found
    have nothing : chargeScalar limits 0 state = (.ok (), state) := rfl
    rw [nothing]
    dsimp only
    rcases structural limits byte state with ⟨_ | _, after⟩ <;> rfl

theorem scan_nil : scan limits [] state = (.ok (), state) := by
  rw [scan]
  exact if_pos rfl

end Scan

/-! ### Snapshots -/

structure JsonMemorySnapshot where
  rawBytes : Nat
  tokens : Nat
  depth : Nat
  peakDepth : Nat
  scalarBytes : Nat
  estimatedBytes : Nat
  rawMemoryMultiplier : Nat
  structuralItemMemoryBytes : Nat
  deriving DecidableEq

/-- `snapshot`. -/
def snapshot (limits : Limits) (state : ScanState) : JsonMemorySnapshot where
  rawBytes := state.rawBytes
  tokens := state.tokens
  depth := state.depth
  peakDepth := state.peakDepth
  scalarBytes := state.scalarBytes
  estimatedBytes := state.estimatedBytes limits
  rawMemoryMultiplier := limits.rawMemoryMultiplier
  structuralItemMemoryBytes := limits.tokenMemoryBytes

/-- `estimate_json_memory_bytes`. -/
def estimateJsonMemoryBytes (limits : Limits) (payload : Bytes) :
    Except ComplexityError JsonMemorySnapshot :=
  match feedPython limits payload {} with
  | (.error error, _) => .error error
  | (.ok _, state) => .ok (snapshot limits state)

end UniApi.Admission.JsonMemory
