/-
**The two planes on a failed attempt: its status and whether it is retried.**

The front reads the detail of a failure as a text. The Python plane also decodes it, and looks into
the message and the code it finds. Over ASCII details:

* `remap_agrees_iff`: when both planes map the status alike;
* `retry_agrees_iff`: when, behind equal statuses, both ask for another attempt;
* `failures_agree_iff`: both together, for every gpt or codex provider.
-/

import UniApi.Front.ProviderStatus
import UniApi.Upstream.Policies

namespace UniApi.CrossPlane

open UniApi.Lib UniApi.Front

/-! ### One detail on both planes -/

/-- An ASCII text as a Python string. -/
def asText (text : Bytes) : PyText := text.map UInt8.toNat

/-- All bytes are ASCII. -/
def AsciiBytes (text : Bytes) : Prop := ∀ byte ∈ text, byte < 128

/-- All letters of the markers are ASCII. -/
def asciiMarkers (markers : List String) : Bool :=
  markers.all fun marker => marker.toList.all (·.toNat < 128)

theorem asText_ascii {text : Bytes} (ascii : AsciiBytes text) : PyText.Ascii (asText text) := by
  intro point isPoint
  obtain ⟨byte, isByte, rfl⟩ := List.mem_map.mp isPoint
  exact UInt8.lt_iff_toNat_lt.mp (ascii byte isByte)

theorem asText_asciiLowered (text : Bytes) :
    asText (asciiLowered text) = (asText text).map PyText.lowerAscii := by
  simp only [asText, asciiLowered, List.map_map]
  exact List.map_congr_left fun byte _ => toNat_toAsciiLowercase byte

theorem asciiLowered_ascii {text : Bytes} (ascii : AsciiBytes text) : AsciiBytes (asciiLowered text) := by
  intro byte isByte
  obtain ⟨origin, isOrigin, rfl⟩ := List.mem_map.mp isByte
  have small : origin.toNat < 128 := UInt8.lt_iff_toNat_lt.mp (ascii origin isOrigin)
  rw [UInt8.lt_iff_toNat_lt, toNat_toAsciiLowercase]
  show PyText.lowerAscii origin.toNat < 128
  unfold PyText.lowerAscii
  by_cases upper : 65 ≤ origin.toNat ∧ origin.toNat ≤ 90
  · rw [if_pos upper]
    show origin.toNat + 32 < 128
    omega
  · rw [if_neg upper]
    exact small

theorem asText_lit {text : String} (ascii : text.toList.all (·.toNat < 128) = true) :
    asText (Utf8.lit text) = Utf8.points text := by
  simp only [asText, Utf8.lit, Utf8.points, List.map_map]
  refine List.map_congr_left fun letter isLetter => ?_
  have small : letter.toNat < 128 := by simpa using List.all_eq_true.mp ascii letter isLetter
  exact Utf8.toNat_ofNat_small (by omega)

/-- **Both planes find the same ASCII markers in a text.** -/
theorem mentions_asText {markers : List String} (ascii : asciiMarkers markers = true) (text : Bytes) :
    Upstream.mentions markers (asText text) = mentions markers text := by
  have each : ∀ marker ∈ markers, isSubstring (Utf8.points marker) (asText text) =
      containsBytes text (Utf8.lit marker) := by
    intro marker isMarker
    rw [← asText_lit (List.all_eq_true.mp ascii marker isMarker)]
    exact isSubstring_map (fun _ _ same => UInt8.toNat_inj.mp same) _ _
  unfold Upstream.mentions mentions
  rw [Bool.eq_iff_iff, List.any_eq_true, List.any_eq_true]
  exact exists_congr fun marker => and_congr_right fun isMarker => by rw [each marker isMarker]

/-- The markers of `remap_status_code` are ASCII, the Chinese text apart. -/
theorem remapMarkers_ascii :
    asciiMarkers Upstream.lengthMarkers = true ∧ asciiMarkers Upstream.keyMarkers = true ∧
      asciiMarkers Upstream.locationMarkers = true ∧ asciiMarkers Upstream.gatewayMarkers = true ∧
      asciiMarkers Upstream.filterMarkers = true ∧ asciiMarkers Upstream.entityMarkers = true ∧
      asciiMarkers pricingMarkers = true := by
  simp only [asciiMarkers, Upstream.lengthMarkers, Upstream.keyMarkers, Upstream.locationMarkers,
    Upstream.gatewayMarkers, Upstream.filterMarkers, Upstream.entityMarkers, pricingMarkers,
    List.all_cons, List.all_nil, Bool.and_true, Bool.and_eq_true]
  repeat' refine And.intro ?_ ?_
  all_goals
    rw [String.toList_ofList]
    decide

theorem retryMarkers_ascii :
    asciiMarkers ["model is not supported when using codex with a chatgpt account"] = true ∧
      Upstream.missingItemMarkers.all (fun marker => asciiMarkers [marker]) = true := by
  simp only [asciiMarkers, Upstream.missingItemMarkers, List.all_cons, List.all_nil, Bool.and_true,
    Bool.and_eq_true]
  repeat' refine And.intro ?_ ?_
  all_goals
    rw [String.toList_ofList]
    decide

theorem mentions_of_infix {markers : List String} {part text : PyText} (inside : part <:+: text)
    (found : Upstream.mentions markers part = true) : Upstream.mentions markers text = true := by
  obtain ⟨marker, isMarker, isFound⟩ := List.any_eq_true.mp found
  exact List.any_eq_true.mpr ⟨marker, isMarker, isSubstring_of_infix inside isFound⟩

/-- Markers found in the lowered detail are found behind other lowered words. -/
theorem mentions_spaced {markers : List String} (ascii : asciiMarkers markers = true)
    {fold : PyText → PyText} (folds : PyText.IsFold fold) (parts : List PyText) {detail : Bytes}
    (asciiDetail : AsciiBytes detail) (found : mentions markers (asciiLowered detail) = true) :
    Upstream.mentions markers (fold (PyText.joinSpaced (parts ++ [asText detail]))) = true := by
  rw [← mentions_asText ascii, asText_asciiLowered] at found
  exact mentions_of_infix (folds.spaced parts (asText_ascii asciiDetail)) found

/-! ### What is compared -/

/-- A text of the detail, read as it is spelled, that changes the status on either plane. -/
def marked (detail : Bytes) : Bool :=
  mentions keyMarkers detail || mentions locationMarkers detail || mentions gatewayMarkers detail ||
    mentions filterMarkers detail || mentions entityMarkers detail

/-- A text of a request that is too long, in any case. -/
def saysTooLong (detail : Bytes) : Bool := mentions lengthMarkers (asciiLowered detail)

/-- A code or a text of a model without a price, in any case. -/
def saysUnpriced (detail : Bytes) : Bool :=
  mentions (pricingCodes ++ pricingMarkers) (asciiLowered detail)

/-- **The statuses are read alike**: a text of a request that is too long is spelled exactly, or a 413
keeps its status; and the detail of a 400 has the text of a pricing code exactly if its parsed code is
one or its message has a pricing text, unless another text decides. -/
structure StatusAlike (runtime : Upstream.PyRuntime) (status : Nat) (detail : Bytes) : Prop where
  length : saysTooLong detail = true →
    mentions Upstream.lengthMarkers detail = true ∨ status = 413 ∧ marked detail = false
  pricing : status = 400 → saysTooLong detail = false → mentions keyMarkers detail = false →
    mentions locationMarkers detail = false → mentions gatewayMarkers detail = false →
    mentions pricingMarkers (asciiLowered detail) = false →
    (mentions pricingCodes (asciiLowered detail) = true ↔
      Upstream.hasPricingCode runtime (asText detail) = true ∨
        Upstream.hasPricingMarker runtime (asText detail) = true)

/-- The detail of a codex provider that refuses the model. -/
def saysCodexUnsupported (detail : Bytes) : Bool :=
  mentions ["model is not supported when using codex with a chatgpt account"] (asciiLowered detail)

/-- **The retries are read alike**: what the Python plane finds in the type and the message of an
otherwise unmarked 400 or 404 is in the detail itself. -/
structure RetryAlike (runtime : Upstream.PyRuntime) (provider : Upstream.Provider) (status : Nat)
    (detail : Bytes) : Prop where
  codex : status = 400 → saysTooLong detail = false → marked detail = false →
    saysUnpriced detail = false →
    Upstream.isCodexChatgptModelUnsupportedError runtime 400 (asText detail) provider
      (Utf8.points "/v1/responses") = true →
    saysCodexUnsupported detail = true
  missing : status = 404 → saysTooLong detail = false → marked detail = false →
    Upstream.isMissingPersistedResponsesItemError runtime 404 (asText detail) = true →
    isMissingPersistedItemError detail = true

/-! ### Markers of both planes -/

section Markers

variable {runtime : Upstream.PyRuntime} {detail : Bytes}

theorem saysTooLong_of_exact (found : mentions Upstream.lengthMarkers detail = true) :
    saysTooLong detail = true := by
  have sameTexts : lengthMarkers.map Utf8.lit =
      Upstream.lengthMarkers.map fun marker => asciiLowered (Utf8.lit marker) := by
    simp only [lengthMarkers, Upstream.lengthMarkers, List.map_cons, List.map_nil, List.cons.injEq,
      and_true]
    repeat' refine And.intro ?_ ?_
    all_goals
      repeat rw [Utf8.lit_ofList]
      rfl
  obtain ⟨marker, isMarker, isFound⟩ := List.any_eq_true.mp found
  have lowered : asciiLowered (Utf8.lit marker) ∈ lengthMarkers.map Utf8.lit := by
    rw [sameTexts]
    exact List.mem_map_of_mem isMarker
  obtain ⟨other, isOther, same⟩ := List.mem_map.mp lowered
  refine List.any_eq_true.mpr ⟨other, isOther, ?_⟩
  rw [same]
  exact isSubstring_map_of toAsciiLowercase isFound

theorem isModelPricingUnconfigured_ascii (ascii : AsciiBytes detail) :
    isModelPricingUnconfigured detail = saysUnpriced detail := by
  have absent : isSubstring (Utf8.points "价格尚未由管理员配置")
      (((Utf8.decodeAll (asciiLowered detail)).getD []).filter (!isWhitespace ·)) = false := by
    have small := asText_ascii (asciiLowered_ascii ascii)
    have decoded : Utf8.decodeAll (asciiLowered detail) = some (asText (asciiLowered detail)) :=
      Utf8.decodeAll_ascii fun byte isByte => small _ (List.mem_map_of_mem isByte)
    rw [decoded]
    have first : 20215 ∈ Utf8.points "价格尚未由管理员配置" := by
      rw [Utf8.points_ofList]
      decide
    refine not_isSubstring_of_not_mem first fun isPoint => ?_
    have impossible : 20215 < 128 := small _ (List.mem_of_mem_filter isPoint)
    omega
  calc isModelPricingUnconfigured detail
      = (saysUnpriced detail || isSubstring (Utf8.points "价格尚未由管理员配置")
          (((Utf8.decodeAll (asciiLowered detail)).getD []).filter (!isWhitespace ·))) := rfl
    _ = saysUnpriced detail := by rw [absent, Bool.or_false]

theorem mentions_append (first second : List String) (text : Bytes) :
    mentions (first ++ second) text = (mentions first text || mentions second text) :=
  List.any_append

theorem hasPricingMarker_of_mentions (ascii : AsciiBytes detail)
    (found : mentions pricingMarkers (asciiLowered detail) = true) :
    Upstream.hasPricingMarker runtime (asText detail) = true := by
  obtain ⟨marker, isMarker, isFound⟩ := List.any_eq_true.mp
    (mentions_spaced remapMarkers_ascii.2.2.2.2.2.2 runtime.casefold_isFold
      [(Upstream.detailsParts runtime (asText detail)).message.getD []] ascii found)
  have folded : runtime.casefold (Utf8.points marker) = Utf8.points marker := by
    have isAscii : pricingMarkers.all fun marker => (Utf8.points marker).all (· < 128) := by
      simp only [pricingMarkers, List.all_cons, List.all_nil, Bool.and_true, Bool.and_eq_true]
      repeat' refine And.intro ?_ ?_
      all_goals
        rw [Utf8.points_ofList]
        decide
    have isLower : pricingMarkers.all fun marker =>
        (Utf8.points marker).map PyText.lowerAscii == Utf8.points marker := by
      simp only [pricingMarkers, List.all_cons, List.all_nil, Bool.and_true, Bool.and_eq_true]
      repeat' refine And.intro ?_ ?_
      all_goals
        rw [Utf8.points_ofList]
        decide
    rw [runtime.casefold_isFold.ascii _ fun point isPoint => by
      simpa using List.all_eq_true.mp (List.all_eq_true.mp isAscii marker isMarker) point isPoint]
    exact beq_iff_eq.mp (List.all_eq_true.mp isLower marker isMarker)
  have listed : marker ∈ Upstream.modelPricingUnconfiguredMarkers :=
    List.mem_append_left ["价格尚未由管理员配置"] isMarker
  unfold Upstream.hasPricingMarker
  refine Bool.or_eq_true_iff.mpr (.inl (List.any_eq_true.mpr ⟨marker, listed, ?_⟩))
  rw [folded]
  exact isFound

/-- What the front finds of an unsupported model in the detail, the Python plane finds. -/
theorem codexUnsupported_of_front {provider : Upstream.Provider} (ascii : AsciiBytes detail)
    (engine : provider.engine = some (Utf8.points "codex"))
    (found : saysCodexUnsupported detail = true) :
    Upstream.isCodexChatgptModelUnsupportedError runtime 400 (asText detail) provider
      (Utf8.points "/v1/responses") = true := by
  have inHaystack := mentions_spaced retryMarkers_ascii.1 runtime.lower_isFold
    [(Upstream.detailsParts runtime (asText detail)).message.getD []] ascii found
  have endpoint : [Utf8.points "/v1/responses", Utf8.points "/v1/responses/compact"].contains
      (Utf8.points "/v1/responses") = true := by
    rw [List.contains_cons, beq_self_eq_true, Bool.true_or]
  unfold Upstream.isCodexChatgptModelUnsupportedError
  rw [if_neg (by decide), if_neg (by rw [endpoint]; decide), if_neg (by rw [engine]; simp)]
  exact inHaystack

/-- What the front finds of an item that was not persisted in the detail, the Python plane finds. -/
theorem missingItem_of_front (ascii : AsciiBytes detail)
    (found : isMissingPersistedItemError detail = true) :
    Upstream.isMissingPersistedResponsesItemError runtime 404 (asText detail) = true := by
  unfold Upstream.isMissingPersistedResponsesItemError
  rw [if_neg (by decide)]
  refine List.all_eq_true.mpr fun marker isMarker => ?_
  exact mentions_spaced (List.all_eq_true.mp retryMarkers_ascii.2 marker isMarker) runtime.lower_isFold
    [(Upstream.detailsParts runtime (asText detail)).errorType.getD [],
      (Upstream.detailsParts runtime (asText detail)).message.getD []] ascii
    (List.all_eq_true.mp found marker isMarker)

end Markers

/-! ### The status -/

/-- The status behind the texts of a request that is too long, in the order of both planes; `unpriced`
is what a plane finds for a 400. -/
def laterStatus (status : Nat) (detail : Bytes) (unpriced : Bool) : Nat :=
  if mentions keyMarkers detail then 401
  else if mentions locationMarkers detail then 403
  else if mentions gatewayMarkers detail then 502
  else if status == 400 && unpriced then 502
  else if mentions filterMarkers detail then 403
  else if mentions entityMarkers detail then 429
  else status

section Status

variable {runtime : Upstream.PyRuntime} {status : Nat} {detail : Bytes}

/-- What the Python plane finds for a 400. -/
def pyUnpriced (runtime : Upstream.PyRuntime) (detail : Bytes) : Bool :=
  Upstream.hasPricingCode runtime (asText detail) || Upstream.hasPricingMarker runtime (asText detail)

theorem remapProviderStatus_eq (ascii : AsciiBytes detail) :
    remapProviderStatus status detail =
      if saysTooLong detail then 413 else laterStatus status detail (saysUnpriced detail) := by
  unfold remapProviderStatus laterStatus saysTooLong
  rw [isModelPricingUnconfigured_ascii ascii]
  cases mentions gatewayMarkers detail with
  | true => simp only [Bool.true_or, if_true]
  | false => simp only [Bool.false_or, Bool.false_eq_true, if_false]

theorem remapStatusCode_eq :
    Upstream.remapStatusCode runtime status (asText detail) =
      if mentions Upstream.lengthMarkers detail then 413
      else laterStatus status detail (pyUnpriced runtime detail) := by
  unfold Upstream.remapStatusCode laterStatus
  obtain ⟨length, key, location, gateway, filter, entity, -⟩ := remapMarkers_ascii
  rw [mentions_asText length, mentions_asText key, mentions_asText location, mentions_asText gateway,
    mentions_asText filter, mentions_asText entity]
  have pricing : Upstream.isModelPricingUnconfiguredError runtime status (asText detail) =
      (status == 400 && pyUnpriced runtime detail) := by
    unfold Upstream.isModelPricingUnconfiguredError pyUnpriced
    by_cases bad : status = 400
    · simp [bad]
    · simp [bad]
  rw [pricing]
  rfl

/-- The later texts never give 413, so it stays only where nothing is marked. -/
theorem laterStatus_eq_413_iff {unpriced : Bool} :
    413 = laterStatus status detail unpriced ↔ status = 413 ∧ marked detail = false := by
  unfold laterStatus marked
  generalize mentions keyMarkers detail = key
  generalize mentions locationMarkers detail = location
  generalize mentions gatewayMarkers detail = gateway
  generalize mentions filterMarkers detail = filter
  generalize mentions entityMarkers detail = entity
  cases key <;> cases location <;> cases gateway <;> simp
  by_cases bad : status = 400
  · cases unpriced <;> cases filter <;> cases entity <;> simp [bad]
  · cases filter <;> cases entity <;> simp [bad, eq_comm]

/-- The later texts give one status for two findings only if the findings are equal or not looked at. -/
theorem laterStatus_congr_iff {first second : Bool} :
    laterStatus status detail first = laterStatus status detail second ↔
      (status = 400 → mentions keyMarkers detail = false → mentions locationMarkers detail = false →
        mentions gatewayMarkers detail = false → first = second) := by
  unfold laterStatus
  generalize mentions keyMarkers detail = key
  generalize mentions locationMarkers detail = location
  generalize mentions gatewayMarkers detail = gateway
  generalize mentions filterMarkers detail = filter
  generalize mentions entityMarkers detail = entity
  cases key <;> cases location <;> cases gateway <;> simp
  by_cases bad : status = 400
  · cases first <;> cases second <;> cases filter <;> cases entity <;> simp [bad]
  · simp [bad]

/-- A status that no text gives is kept where no text is found. -/
theorem laterStatus_eq_iff {unpriced : Bool} {kept : Nat} (own : kept ∉ [401, 403, 502, 429]) :
    laterStatus status detail unpriced = kept ↔
      status = kept ∧ marked detail = false ∧ (kept = 400 → unpriced = false) := by
  simp only [List.mem_cons, List.not_mem_nil, or_false, not_or] at own
  unfold laterStatus marked
  generalize mentions keyMarkers detail = key
  generalize mentions locationMarkers detail = location
  generalize mentions gatewayMarkers detail = gateway
  generalize mentions filterMarkers detail = filter
  generalize mentions entityMarkers detail = entity
  obtain ⟨notKey, notForbidden, notGateway, notEntity⟩ := own
  cases key <;> cases location <;> cases gateway <;>
    simp [Ne.symm notKey, Ne.symm notForbidden, Ne.symm notGateway]
  by_cases bad : status = 400
  · cases unpriced <;> cases filter <;> cases entity <;>
      simp [bad, Ne.symm notForbidden, Ne.symm notGateway, Ne.symm notEntity]
    omega
  · cases filter <;> cases entity <;> simp [bad, Ne.symm notForbidden, Ne.symm notEntity]
    omega

/-- What a plane finds for a 400 is equal exactly if codes and messages are read alike. -/
theorem saysUnpriced_eq_iff (ascii : AsciiBytes detail) :
    saysUnpriced detail = pyUnpriced runtime detail ↔
      (mentions pricingMarkers (asciiLowered detail) = false →
        (mentions pricingCodes (asciiLowered detail) = true ↔
          Upstream.hasPricingCode runtime (asText detail) = true ∨
            Upstream.hasPricingMarker runtime (asText detail) = true)) := by
  have inBoth := @hasPricingMarker_of_mentions runtime detail ascii
  unfold saysUnpriced pyUnpriced
  rw [mentions_append, Bool.eq_iff_iff, Bool.or_eq_true, Bool.or_eq_true]
  cases found : mentions pricingMarkers (asciiLowered detail) with
  | true => simp [inBoth found]
  | false => simp

/-- **When both planes map a status alike.** -/
theorem remap_agrees_iff (ascii : AsciiBytes detail) :
    remapProviderStatus status detail = Upstream.remapStatusCode runtime status (asText detail) ↔
      StatusAlike runtime status detail := by
  rw [remapProviderStatus_eq ascii, remapStatusCode_eq]
  cases long : saysTooLong detail with
  | true =>
    rw [if_pos rfl]
    cases spelled : mentions Upstream.lengthMarkers detail with
    | true =>
      exact iff_of_true rfl ⟨fun _ => .inl spelled, fun _ short => by simp [long] at short⟩
    | false =>
      rw [if_neg Bool.false_ne_true, laterStatus_eq_413_iff]
      refine ⟨fun kept => ⟨fun _ => .inr kept, fun _ short => by simp [long] at short⟩, ?_⟩
      intro alike
      rcases alike.length long with exactly | kept
      · rw [spelled] at exactly
        cases exactly
      · exact kept
  | false =>
    have notSpelled : mentions Upstream.lengthMarkers detail = false := by
      rw [Bool.eq_false_iff]
      exact fun spelled => by simp [saysTooLong_of_exact spelled] at long
    rw [if_neg Bool.false_ne_true, notSpelled, if_neg Bool.false_ne_true, laterStatus_congr_iff,
      saysUnpriced_eq_iff ascii]
    refine ⟨fun same => ⟨fun isLong => by simp [long] at isLong, fun bad _ => same bad⟩, ?_⟩
    exact fun alike bad => alike.pricing bad long

end Status

/-! ### The retry -/

section Retry

variable {runtime : Upstream.PyRuntime} {status : Nat} {detail : Bytes} {route : NativeRoute}
  {provider : Upstream.Provider} {outcome : Value}

/-- The status of the Python plane is no 400 with a missing price. -/
theorem not_unpriced_of_remapped :
    Upstream.isModelPricingUnconfiguredError runtime
      (Upstream.remapStatusCode runtime status (asText detail)) (asText detail) = false := by
  unfold Upstream.isModelPricingUnconfiguredError
  by_cases bad : Upstream.remapStatusCode runtime status (asText detail) = 400
  · have noFinding : pyUnpriced runtime detail = false := by
      rw [remapStatusCode_eq] at bad
      cases spelled : mentions Upstream.lengthMarkers detail with
      | true =>
        rw [spelled, if_pos rfl] at bad
        cases bad
      | false =>
        rw [spelled, if_neg Bool.false_ne_true, laterStatus_eq_iff (by decide)] at bad
        exact bad.2.2 rfl
    simpa [bad, pyUnpriced] using noFinding
  · simp [bad]

/-- A status that no text gives is the status of the front exactly where no text is found. -/
theorem remapProviderStatus_eq_iff (ascii : AsciiBytes detail) {kept : Nat}
    (own : kept ∉ [413, 401, 403, 502, 429]) :
    remapProviderStatus status detail = kept ↔
      status = kept ∧ saysTooLong detail = false ∧ marked detail = false ∧
        (kept = 400 → saysUnpriced detail = false) := by
  rw [List.mem_cons, not_or] at own
  rw [remapProviderStatus_eq ascii]
  cases long : saysTooLong detail with
  | true =>
    rw [if_pos rfl]
    exact iff_of_false (fun same => own.1 same.symm) (fun kept => by simp at kept)
  | false =>
    rw [if_neg Bool.false_ne_true, laterStatus_eq_iff own.2]
    simp

/-- `record_failure` with retries on and attempts left. -/
theorem recordFailure_eq (retries : route.autoRetry = true) (remaining : route.hasAttemptsRemaining = true)
    (hasStatus : outcomeStatus outcome = status) (hasDetail : outcomeDetail outcome = detail) :
    route.recordFailure outcome =
      (!([400, 413].contains (remapProviderStatus status detail) ||
          remapProviderStatus status detail == 404 && isMissingPersistedItemError detail) ||
        (remapProviderStatus status detail == 400 &&
          route.lastEngine.any (eqIgnoreAsciiCase · (Utf8.lit "codex")) &&
          saysCodexUnsupported detail)) := by
  unfold NativeRoute.recordFailure
  rw [hasStatus, hasDetail, retries, remaining]
  simp only [Bool.true_and, Bool.and_true]
  rfl

/-- `should_retry` behind a status of `remap_status_code`. -/
theorem shouldRetry_eq {kept : Nat}
    (priced : Upstream.isModelPricingUnconfiguredError runtime kept (asText detail) = false)
    (host : provider.netloc ≠ Utf8.points "models.inference.ai.azure.com") (endpoint : PyText) :
    Upstream.shouldRetry runtime true kept provider (asText detail) endpoint =
      (Upstream.isCodexChatgptModelUnsupportedError runtime kept (asText detail) provider endpoint ||
        !Upstream.isMissingPersistedResponsesItemError runtime kept (asText detail) &&
          !([400, 413].contains kept)) := by
  unfold Upstream.shouldRetry
  rw [priced, beq_false_of_ne host]
  cases Upstream.isCodexChatgptModelUnsupportedError runtime kept (asText detail) provider endpoint <;>
    cases Upstream.isMissingPersistedResponsesItemError runtime kept (asText detail) <;> simp

/-- Of a gpt or codex provider, both planes know whether it is codex. -/
theorem engines_agree {engine : Bytes} (isEngine : engine = Utf8.lit "gpt" ∨ engine = Utf8.lit "codex") :
    eqIgnoreAsciiCase engine (Utf8.lit "codex") = true ↔ asText engine = Utf8.points "codex" := by
  rcases isEngine with rfl | rfl
  · rw [Utf8.lit_ofList, Utf8.lit_ofList, Utf8.points_ofList]
    exact iff_of_false (by decide) (by decide)
  · exact iff_of_true (beq_self_eq_true _) (asText_lit (by rw [String.toList_ofList]; decide))

theorem not_codexUnsupported_of_engine {engine endpoint : PyText}
    (pyEngine : provider.engine = some engine) (other : engine ≠ Utf8.points "codex") :
    Upstream.isCodexChatgptModelUnsupportedError runtime status (asText detail) provider endpoint =
      false := by
  have notCodex : (provider.engine != some (Utf8.points "codex")) = true := by
    rw [pyEngine, bne_iff_ne]
    exact fun same => other (Option.some.inj same)
  unfold Upstream.isCodexChatgptModelUnsupportedError
  rw [notCodex]
  simp

/-- **When both planes retry alike**, behind equal statuses. -/
theorem retry_agrees_iff (ascii : AsciiBytes detail) (retries : route.autoRetry = true)
    (remaining : route.hasAttemptsRemaining = true) {engine : Bytes}
    (isEngine : engine = Utf8.lit "gpt" ∨ engine = Utf8.lit "codex")
    (frontEngine : route.lastEngine = some engine) (pyEngine : provider.engine = some (asText engine))
    (host : provider.netloc ≠ Utf8.points "models.inference.ai.azure.com")
    (hasStatus : outcomeStatus outcome = status) (hasDetail : outcomeDetail outcome = detail)
    (same : remapProviderStatus status detail =
      Upstream.remapStatusCode runtime status (asText detail)) :
    route.recordFailure outcome =
        Upstream.shouldRetry runtime true (Upstream.remapStatusCode runtime status (asText detail))
          provider (asText detail) (Utf8.points "/v1/responses") ↔
      RetryAlike runtime provider status detail := by
  rw [recordFailure_eq retries remaining hasStatus hasDetail,
    shouldRetry_eq not_unpriced_of_remapped host, ← same]
  rw [frontEngine, Option.any_some]
  by_cases bad : remapProviderStatus status detail = 400
  · -- a refused request is retried by a codex provider that does not know the model
    obtain ⟨is400, short, plain, priced⟩ := (remapProviderStatus_eq_iff ascii (by decide)).mp bad
    have alike : RetryAlike runtime provider status detail ↔
        (Upstream.isCodexChatgptModelUnsupportedError runtime 400 (asText detail) provider
          (Utf8.points "/v1/responses") = true → saysCodexUnsupported detail = true) :=
      ⟨fun alike => alike.codex is400 short plain (priced rfl),
        fun codex => ⟨fun _ _ _ _ => codex, fun is404 => absurd (is400.symm.trans is404) (by decide)⟩⟩
    rw [alike, bad]
    simp only [List.contains_cons, beq_self_eq_true, Bool.true_or, Bool.not_true, Bool.false_or,
      Bool.true_and, Bool.and_false, Bool.or_false]
    by_cases isCodex : asText engine = Utf8.points "codex"
    · rw [isCodex] at pyEngine
      rw [(engines_agree isEngine).mpr isCodex, Bool.true_and, Bool.eq_iff_iff]
      exact ⟨Iff.mpr, fun front => ⟨codexUnsupported_of_front ascii pyEngine, front⟩⟩
    · rw [not_codexUnsupported_of_engine pyEngine isCodex,
        Bool.eq_false_iff.mpr fun front => isCodex ((engines_agree isEngine).mp front)]
      simp
  · have notCodex : Upstream.isCodexChatgptModelUnsupportedError runtime
        (remapProviderStatus status detail) (asText detail) provider (Utf8.points "/v1/responses") =
        false := by
      simp [Upstream.isCodexChatgptModelUnsupportedError, bad]
    rw [notCodex, beq_false_of_ne bad, Bool.false_and, Bool.false_and, Bool.or_false, Bool.false_or]
    by_cases absent : remapProviderStatus status detail = 404
    · -- a missing item is not retried
      obtain ⟨is404, short, plain, -⟩ := (remapProviderStatus_eq_iff ascii (by decide)).mp absent
      have alike : RetryAlike runtime provider status detail ↔
          (Upstream.isMissingPersistedResponsesItemError runtime 404 (asText detail) = true →
            isMissingPersistedItemError detail = true) :=
        ⟨fun alike => alike.missing is404 short plain,
          fun item => ⟨fun is400 => absurd (is404.symm.trans is400) (by decide), fun _ _ _ => item⟩⟩
      rw [alike, absent]
      simp only [List.contains_cons, List.contains_nil, Nat.reduceBEq, Bool.or_self, Bool.false_or,
        beq_self_eq_true, Bool.true_and, Bool.not_false, Bool.and_true, Bool.not_inj_iff]
      rw [Bool.eq_iff_iff]
      exact ⟨Iff.mpr, fun front => ⟨missingItem_of_front ascii, front⟩⟩
    · have notMissing : Upstream.isMissingPersistedResponsesItemError runtime
          (remapProviderStatus status detail) (asText detail) = false := by
        simp [Upstream.isMissingPersistedResponsesItemError, absent]
      rw [notMissing, beq_false_of_ne absent, Bool.false_and, Bool.or_false, Bool.not_false,
        Bool.true_and]
      refine iff_of_true rfl ⟨fun is400 short plain priced => ?_, fun is404 short plain => ?_⟩
      · exact absurd ((remapProviderStatus_eq_iff ascii (by decide)).mpr
          ⟨is400, short, plain, fun _ => priced⟩) bad
      · exact absurd ((remapProviderStatus_eq_iff ascii (by decide)).mpr
          ⟨is404, short, plain, fun other => absurd other (by decide)⟩) absent

/-- **The two planes on a failure.** For an upstream status and an ASCII detail of a gpt or codex
provider, with retries on and attempts left: the statuses are equal and the same attempt is retried
exactly if the detail is read alike. -/
theorem failures_agree_iff (ascii : AsciiBytes detail) (retries : route.autoRetry = true)
    (remaining : route.hasAttemptsRemaining = true) {engine : Bytes}
    (isEngine : engine = Utf8.lit "gpt" ∨ engine = Utf8.lit "codex")
    (frontEngine : route.lastEngine = some engine) (pyEngine : provider.engine = some (asText engine))
    (host : provider.netloc ≠ Utf8.points "models.inference.ai.azure.com")
    (hasStatus : outcomeStatus outcome = status) (hasDetail : outcomeDetail outcome = detail) :
    (remapProviderStatus status detail = Upstream.remapStatusCode runtime status (asText detail) ∧
      route.recordFailure outcome =
        Upstream.shouldRetry runtime true (Upstream.remapStatusCode runtime status (asText detail))
          provider (asText detail) (Utf8.points "/v1/responses")) ↔
      StatusAlike runtime status detail ∧ RetryAlike runtime provider status detail := by
  constructor
  · rintro ⟨same, retried⟩
    exact ⟨(remap_agrees_iff ascii).mp same, (retry_agrees_iff ascii retries remaining isEngine
      frontEngine pyEngine host hasStatus hasDetail same).mp retried⟩
  · rintro ⟨status, retry⟩
    have same := (remap_agrees_iff ascii).mpr status
    exact ⟨same, (retry_agrees_iff ascii retries remaining isEngine frontEngine pyEngine host
      hasStatus hasDetail same).mpr retry⟩

end Retry

/-- An interpreter that knows ASCII letters and decodes nothing. -/
def plainRuntime : Upstream.PyRuntime :=
  { PyText.CaseTables.ascii with jsonLoads := fun _ => none, literalEval := fun _ => none }

/-- The outcome of an attempt that failed with a status and a detail. -/
def failedOutcome (status : Nat) (detail : Bytes) : Value :=
  .object [(Utf8.lit "detail", .string detail), (Utf8.lit "status_code", .number (.posInt status))]

/-- A codex provider on both planes, with retries on. -/
def codexRoute : NativeRoute := ⟨true, true, some (Utf8.lit "codex")⟩

def codexProvider : Upstream.Provider :=
  ⟨some (asText (Utf8.lit "codex")), Utf8.points "provider.example"⟩

/-- A bad gateway of a codex provider. -/
theorem failures_agree_bad_gateway :
    (remapProviderStatus 502 (Utf8.lit "upstream gone") =
        Upstream.remapStatusCode plainRuntime 502 (asText (Utf8.lit "upstream gone")) ∧
      codexRoute.recordFailure (failedOutcome 502 (Utf8.lit "upstream gone")) =
        Upstream.shouldRetry plainRuntime true
          (Upstream.remapStatusCode plainRuntime 502 (asText (Utf8.lit "upstream gone")))
          codexProvider (asText (Utf8.lit "upstream gone")) (Utf8.points "/v1/responses")) ↔
      StatusAlike plainRuntime 502 (Utf8.lit "upstream gone") ∧
        RetryAlike plainRuntime codexProvider 502 (Utf8.lit "upstream gone") :=
  failures_agree_iff (by unfold AsciiBytes; decide +kernel) rfl rfl (.inr rfl) rfl rfl
    (by decide) (by decide) (by decide)

/-- **A text in another case is read by the front alone**: it makes the failure the caller's, and the
Python plane retries it. -/
theorem lower_case_read_by_front :
    remapProviderStatus 500 (Utf8.lit "please reduce the length of the messages or completion") = 413 ∧
      Upstream.remapStatusCode plainRuntime 500
        (asText (Utf8.lit "please reduce the length of the messages or completion")) = 500 ∧
      codexRoute.recordFailure (failedOutcome 500
        (Utf8.lit "please reduce the length of the messages or completion")) = false ∧
      Upstream.shouldRetry plainRuntime true 500 codexProvider
        (asText (Utf8.lit "please reduce the length of the messages or completion"))
        (Utf8.points "/v1/responses") = true := by
  refine ⟨?_, ?_, ?_, ?_⟩ <;> decide

end UniApi.CrossPlane
