/-
**`_buffer_bounded_response`: a whole upstream response, with its memory reserved.**

The body is read up to its limit, through a temporary reservation of the request's lease. A body
that may be parsed as JSON has its graph reserved too, before anyone can parse it. The
reservation is committed at the end, and whatever is raised releases it.

* `Holding`: the reservation is open, with a size;
* `bufferContent_spec`: behind the reservation, step by step;
* `bufferBoundedResponse_spec`: a response that is returned is committed for, and a call that
  raises has released all;
* `upstream_bodies_bounded`: upstream bodies are complete or flagged, and charged before use.
-/

import UniApi.Admission.JsonMemory
import UniApi.Upstream.LimitedReads

namespace UniApi.Upstream

open UniApi.Lib
open UniApi.Admission (Moment ResponseLimits TemporaryResponseBytesReservation)
open UniApi.Admission.JsonMemory (JsonMemorySnapshot estimateJsonMemoryBytes)

/-! ### The code -/

/-- `upstream_success_body_max_bytes`, with the value of its variable where that is a number. -/
def upstreamSuccessBodyMaxBytes (configured : Option ℤ) : ℕ :=
  match configured with
  | none => 64 * 1024 * 1024
  | some value => max 1 value.toNat

/-- `upstream_error_body_max_bytes`. -/
def upstreamErrorBodyMaxBytes (configured : Option ℤ) : ℕ :=
  match configured with
  | none => 256 * 1024
  | some value => max 1 value.toNat

/-- `_ERROR_RESPONSE_MATERIALIZATION_MULTIPLIER`. -/
abbrev errorResponseMaterializationMultiplier : ℕ := 72

/-- `_TRUNCATED_ERROR_SUFFIX`. -/
def truncatedErrorSuffix : Bytes := Utf8.encode "\n...[upstream error body truncated]".toList

inductive JsonPrefixKind where
  | unsupported
  | json
  | other
  deriving DecidableEq

/-- `_json_prefix_kind`. -/
def jsonPrefixKind (content : Bytes) : JsonPrefixKind :=
  if [0xFF, 0xFE, 0, 0].isPrefixOf content || [0, 0, 0xFE, 0xFF].isPrefixOf content then
    .unsupported
  else if [0xFF, 0xFE].isPrefixOf content || [0xFE, 0xFF].isPrefixOf content then .unsupported
  else
    let text := if [0xEF, 0xBB, 0xBF].isPrefixOf content then content.drop 3 else content
    match text.dropWhile fun byte => byte = 0x20 || byte = 0x09 || byte = 0x0A || byte = 0x0D with
    | [] => .other
    | byte :: _ => if byte = 0x7B || byte = 0x5B then .json else .other

/-- The limits of the estimate. -/
def responseJsonLimits : Admission.JsonMemory.Limits where
  rawMemoryMultiplier := 4
  tokenMemoryBytes := 128
  maxDepth := 128
  maxScalarBytes := 4096
  maxEstimatedBytes := 2 * 1024 * 1024 * 1024
  weights_pos := by decide
  limits_pos := by decide

/-- What is buffered. The other parts of a response are copied. -/
structure BufferedResponse where
  statusCode : ℕ
  content : Bytes
  deriving DecidableEq

/-- What a call works on. -/
structure BufferState where
  reservation : TemporaryResponseBytesReservation
  awaits : ℕ

/-- What a call works with: the configured limits, the lease of the request if there is one, the
zlib objects, and what the awaits raise. -/
structure BufferSetting (σ : Type) where
  successBodyMaxBytes : Option ℤ
  errorBodyMaxBytes : Option ℤ
  requestLease : Option (ResponseLimits × (ℕ → Moment))
  zlib : Decompressor σ
  start : Coding → σ
  readInterrupts : ℕ → Option UpstreamFault
  interrupts : ℕ → Option UpstreamFault

namespace BufferSetting

variable {σ : Type} (setting : BufferSetting σ)

/-- A call that may raise. -/
abbrev Run (_ : BufferSetting σ) (α : Type) := Raise ReadFault BufferState α

/-- `raise`. -/
def throw {α : Type} (fault : UpstreamFault) : setting.Run α := Raise.throw (.raised fault)

/-- `run_json_cpu`, which may raise instead. -/
def runJsonCpu : setting.Run Unit := do
  let state ← Raise.get
  Raise.modify fun state => { state with awaits := state.awaits + 1 }
  match setting.interrupts state.awaits with
  | some fault => setting.throw fault
  | none => return ()

/-- A call on the reservation. -/
def onReservation {α : Type} (call : TemporaryResponseBytesReservation.Run α) :
    setting.Run Unit := fun state =>
  match call state.reservation with
  | (.ok _, reservation) => (.ok (), { state with reservation })
  | (.error fault, reservation) =>
    (.error (.raised (.reservation fault)), { state with reservation })

/-- A call on the reservation, if the request has a lease. -/
def ifLeased {α : Type}
    (call : ResponseLimits → (ℕ → Moment) → TemporaryResponseBytesReservation.Run α) :
    setting.Run Unit :=
  match setting.requestLease with
  | some (limits, moments) => setting.onReservation (call limits moments)
  | none => return ()

/-- `pending_reservation.reserve`, as a callback of the reader. -/
def reserveCallback (limits : ResponseLimits) (moments : ℕ → Moment) (size : ℕ) :
    Raise UpstreamFault TemporaryResponseBytesReservation Unit := fun reservation =>
  match TemporaryResponseBytesReservation.reserve limits moments size reservation with
  | (.ok _, after) => (.ok (), after)
  | (.error fault, after) => (.error (.reservation fault), after)

/-- The arguments of `read_limited_response_body`. -/
def reading (limit multiplier : ℕ) : ReadSetting σ TemporaryResponseBytesReservation where
  limit := limit
  reservationMultiplier := multiplier
  reserveBytes := setting.requestLease.map fun lease => reserveCallback lease.1 lease.2
  zlib := setting.zlib
  interrupts := setting.readInterrupts

/-- The limited read. -/
def readLimited (limit multiplier : ℕ) (response : UpstreamResponse) :
    setting.Run LimitedResponseBody :=
  fun state =>
    let (outcome, after) := (setting.reading limit multiplier).readLimitedResponseBody
      setting.start response
      (ReadState.fresh (setting.start .gzip) state.reservation)
    (outcome, { state with reservation := after.outside })

/-- More bytes are reserved for a content that was reserved with the multiplier. Without anything
to reserve, or a lease to reserve it in, 256 MiB is the limit. -/
def reserveTarget (limit multiplier target : ℕ) (content : Bytes) : setting.Run Unit :=
  let additional := target - content.length * multiplier
  if setting.requestLease.isSome ∧ additional ≠ 0 then
    setting.ifLeased fun limits moments =>
      TemporaryResponseBytesReservation.reserve limits moments additional
  else if target > 256 * 1024 * 1024 then setting.throw (.tooLarge limit)
  else return ()

/-- The graph of a JSON document is reserved. -/
def reserveJson (limit multiplier : ℕ) (content : Bytes) : setting.Run Unit := do
  setting.runJsonCpu
  match estimateJsonMemoryBytes responseJsonLimits content with
  | .error _ => setting.throw (.tooLarge limit)
  | .ok estimate => setting.reserveTarget limit multiplier estimate.estimatedBytes content

/-- A long content is looked at by a worker. -/
def lookAt (content : Bytes) : setting.Run Unit :=
  if content.length ≥ 64 * 1024 then setting.runJsonCpu else return ()

/-- A successful content may be JSON. -/
def reserveSuccess (limit multiplier : ℕ) (content : Bytes) : setting.Run Unit := do
  setting.lookAt content
  match jsonPrefixKind content with
  | .unsupported => setting.throw .jsonEncodingUnsupported
  | .json => setting.reserveJson limit multiplier content
  | .other => return ()

/-- The content: a truncated success is refused, and a truncated error has a suffix. -/
def contentOf (success : Bool) (limit multiplier : ℕ) (limited : LimitedResponseBody) :
    setting.Run Bytes :=
  if limited.truncated ∧ success then setting.throw (.tooLarge limit)
  else if limited.truncated then do
    setting.ifLeased fun limits moments =>
      TemporaryResponseBytesReservation.reserve limits moments
        (truncatedErrorSuffix.length * multiplier)
    return limited.body ++ truncatedErrorSuffix
  else return limited.body

/-- What may be parsed later is reserved, unless the caller gave a multiplier. -/
def reserveStructure (structured success : Bool) (limit multiplier : ℕ) (content : Bytes) :
    setting.Run Unit :=
  if structured ∧ content ≠ [] then
    if success then setting.reserveSuccess limit multiplier content
    else
      setting.reserveTarget limit multiplier
        (content.length * errorResponseMaterializationMultiplier) content
  else return ()

/-- What is tried. -/
def bufferContent (structured success : Bool) (limit multiplier : ℕ) (response : UpstreamResponse) :
    setting.Run Bytes := do
  let limited ← setting.readLimited limit multiplier response
  let content ← setting.contentOf success limit multiplier limited
  setting.reserveStructure structured success limit multiplier content
  setting.ifLeased fun _ moments => TemporaryResponseBytesReservation.commit moments
  return content

/-- `200 <= response.status_code < 300`. -/
def isSuccess (statusCode : ℕ) : Bool := 200 ≤ statusCode && statusCode < 300

/-- The limit of a status. -/
def limitOf (statusCode : ℕ) : ℕ :=
  if isSuccess statusCode then upstreamSuccessBodyMaxBytes setting.successBodyMaxBytes
  else upstreamErrorBodyMaxBytes setting.errorBodyMaxBytes

/-- The multiplier that is reserved with, of the one that was given. -/
def multiplierOf (reservationMultiplier : Option ℕ) : ℕ :=
  match reservationMultiplier with
  | none => 4
  | some multiplier => max 2 multiplier

/-- `_buffer_bounded_response`. -/
def bufferBoundedResponse (statusCode : ℕ) (response : UpstreamResponse)
    (reservationMultiplier : Option ℕ) : setting.Run BufferedResponse := do
  setting.ifLeased fun limits moments =>
    TemporaryResponseBytesReservation.reserveTemporaryResponseBytes limits moments 0
  let content ← Raise.tryExcept
    (setting.bufferContent reservationMultiplier.isNone (isSuccess statusCode)
      (setting.limitOf statusCode)
      (multiplierOf reservationMultiplier) response)
    fun fault => do
      setting.ifLeased TemporaryResponseBytesReservation.release
      Raise.throw fault
  return { statusCode, content }

end BufferSetting

/-- What a call starts from. -/
def BufferState.fresh : BufferState where
  reservation := .init
  awaits := 0

/-! ### What is reserved -/

/-- **The reservation is open**, with a size, where there is one. -/
def Holding {σ : Type} (setting : BufferSetting σ) (size : ℕ) (state : BufferState) : Prop :=
  ∀ limits moments, setting.requestLease = some (limits, moments) →
    TemporaryResponseBytesReservation.Held limits size state.reservation

/-- What raises behind the reservation leaves it open. -/
def Left {σ : Type} (setting : BufferSetting σ) (fault : ReadFault) (state : BufferState) : Prop :=
  fault ≠ .unfinished ∧ ∃ size, Holding setting size state

/-- **What raises in the end** has released it. -/
def ReleasedAll {σ : Type} (setting : BufferSetting σ) (fault : ReadFault) (state : BufferState) :
    Prop :=
  fault ≠ .unfinished ∧ ∀ limits moments, setting.requestLease = some (limits, moments) →
    TemporaryResponseBytesReservation.Free limits state.reservation

/-- The content looks like JSON that its caller may parse. -/
def MayBeParsed (structured success : Bool) (content : Bytes) : Prop :=
  structured = true ∧ success = true ∧ jsonPrefixKind content = .json

/-- The bytes that are reserved are enough for a content. -/
structure Enough (structured success : Bool) (multiplier : ℕ) (content : Bytes) (size : ℕ) :
    Prop where
  copies : content.length * multiplier ≤ size
  graph : MayBeParsed structured success content →
    ∃ estimate, estimateJsonMemoryBytes responseJsonLimits content = .ok estimate ∧
      estimate.estimatedBytes ≤ size

/-- Without a lease, the estimate of a content is at most 256 MiB. -/
def Small (structured success : Bool) (content : Bytes) : Prop :=
  MayBeParsed structured success content →
    ∃ estimate, estimateJsonMemoryBytes responseJsonLimits content = .ok estimate ∧
      estimate.estimatedBytes ≤ 256 * 1024 * 1024

/-- Enough is reserved, in an open reservation. -/
def Reserved {σ : Type} (setting : BufferSetting σ) (structured success : Bool) (multiplier : ℕ)
    (content : Bytes) (state : BufferState) : Prop :=
  ∃ size, Holding setting size state ∧
    (setting.requestLease.isSome = true → Enough structured success multiplier content size) ∧
      (setting.requestLease = none → Small structured success content)

/-- **Enough is committed.** -/
def Buffered {σ : Type} (setting : BufferSetting σ) (structured success : Bool) (multiplier : ℕ)
    (content : Bytes) (state : BufferState) : Prop :=
  (∀ limits moments, setting.requestLease = some (limits, moments) →
    ∃ size, TemporaryResponseBytesReservation.Committed limits size state.reservation ∧
      Enough structured success multiplier content size) ∧
    (setting.requestLease = none → Small structured success content)

section Specs

variable {σ : Type} {setting : BufferSetting σ} {size : ℕ}

variable {Holds : Coding → σ → Bytes → Bytes → Prop} {coding : Option Coding}
  {state : BufferState}

theorem Holding.left (holding : Holding setting size state) (fault : UpstreamFault) :
    Left setting (.raised fault) state := ⟨nofun, size, holding⟩

theorem throw_left {α : Type} {post : α → BufferState → Prop} (fault : UpstreamFault) :
    Raise.Spec (Holding setting size) (setting.throw fault) post (Left setting) :=
  Raise.Spec.throw fun _ holding => holding.left fault

theorem runJsonCpu_spec :
    Raise.Spec (Holding setting size) setting.runJsonCpu (fun _ => Holding setting size)
      (Left setting) := by
  refine Raise.Spec.bind _ (Raise.Spec.get fun _ holding => holding) fun seen => ?_
  refine Raise.Spec.bind (fun _ => Holding setting size)
    (Raise.Spec.modify fun _ holding => holding) fun _ => ?_
  cases setting.interrupts seen.awaits with
  | none => exact Raise.Spec.pure fun _ holding => holding
  | some fault => exact throw_left fault

theorem holding_iff {limits : ResponseLimits} {moments : ℕ → Moment}
    (leased : setting.requestLease = some (limits, moments)) :
    Holding setting size state ↔
      TemporaryResponseBytesReservation.Held limits size state.reservation := by
  refine ⟨fun holding => holding limits moments leased, fun held other ticks same => ?_⟩
  cases leased.symm.trans same
  exact held

theorem holding_of_none (unleased : setting.requestLease = none) :
    Holding setting size state := fun _ _ same => absurd (unleased.symm.trans same) nofun

theorem onReservation_spec {α : Type} {call : TemporaryResponseBytesReservation.Run α}
    {pre : TemporaryResponseBytesReservation → Prop}
    {post : α → TemporaryResponseBytesReservation → Prop}
    {fails : Admission.ReservationFault → TemporaryResponseBytesReservation → Prop}
    (spec : Raise.Spec pre call post fails) :
    Raise.Spec (fun state => pre state.reservation) (setting.onReservation call)
      (fun _ state => ∃ value, post value state.reservation)
      (fun fault state => ∃ raised, fault = .raised (.reservation raised)
        ∧ fails raised state.reservation) := by
  intro state start
  have here := spec state.reservation start
  unfold BufferSetting.onReservation
  rcases outcome : call state.reservation with ⟨fault | value, reservation⟩
  all_goals rw [outcome] at here
  · exact ⟨fault, rfl, here⟩
  · exact ⟨value, here⟩

/-- A call that needs a lease. -/
theorem ifLeased_spec {α : Type} {pre : BufferState → Prop} {post : Unit → BufferState → Prop}
    {fails : ReadFault → BufferState → Prop}
    {call : ResponseLimits → (ℕ → Moment) → TemporaryResponseBytesReservation.Run α}
    (leased : ∀ limits moments, setting.requestLease = some (limits, moments) →
      Raise.Spec pre (setting.onReservation (call limits moments)) post fails)
    (unleased : setting.requestLease = none → ∀ state, pre state → post () state) :
    Raise.Spec pre (setting.ifLeased call) post fails := by
  unfold BufferSetting.ifLeased
  cases lease : setting.requestLease with
  | none => exact Raise.Spec.pure (unleased lease)
  | some lease' => exact leased lease'.1 lease'.2 lease

theorem reserveMore_spec (additional : ℕ) :
    Raise.Spec (Holding setting size)
      (setting.ifLeased fun limits moments =>
        TemporaryResponseBytesReservation.reserve limits moments additional)
      (fun _ => Holding setting (size + additional)) (Left setting) := by
  refine ifLeased_spec (fun limits moments leased => ?_) fun unleased _ _ =>
    holding_of_none unleased
  refine (onReservation_spec (TemporaryResponseBytesReservation.reserve_spec additional)).weaken
    (fun _ => (holding_iff leased).mp)
    (fun _ state ⟨_, _, held⟩ => (holding_iff leased).mpr held) ?_
  rintro _ state ⟨fault, rfl, held⟩
  exact ((holding_iff leased).mpr held).left _

theorem reading_follows (limit multiplier awaits : ℕ) :
    Follows (setting.reading limit multiplier) fun total reservation =>
      Holding setting total { reservation, awaits } := by
  rintro callback isCallback total size reservation holding
  obtain ⟨⟨limits, moments⟩, leased, rfl⟩ := Option.map_eq_some_iff.mp isCallback
  have here := @TemporaryResponseBytesReservation.reserve_spec limits moments total size reservation
    (holding limits moments leased)
  unfold BufferSetting.reserveCallback
  rcases outcome : TemporaryResponseBytesReservation.reserve limits moments size reservation with
    ⟨fault | value, after⟩
  all_goals rw [outcome] at here
  · exact (holding_iff leased).mpr here
  · exact (holding_iff leased).mpr here.2

/-- **The read** leaves its copies reserved. -/
theorem readLimited_spec {formats : Coding → Format}
    {response : UpstreamResponse} {chunks : List Bytes}
    {limit multiplier : ℕ}
    (positive : 0 < limit) (weighted : 0 < multiplier)
    (inflates : ∀ coding,
      setting.zlib.Inflates (formats coding) (setting.start coding) (Holds coding))
    (streams : response.Streams coding chunks) :
    Raise.Spec (Holding setting 0) (setting.readLimited limit multiplier response)
      (fun value => Holding setting (value.body.length * multiplier)) (Left setting) := by
  intro state holding
  have limited := (@readLimitedResponseBody_spec _ _ (setting.reading limit multiplier) formats
    _ _ _ _ _ positive weighted inflates streams (setting.start .gzip) state.reservation).both
    ((readLimitedResponseBody_follows (reading_follows limit multiplier state.awaits) setting.start
      response).weaken (fun _ same => same ▸ holding) (fun _ _ held => held)
        fun _ _ held => held) _ rfl
  unfold BufferSetting.readLimited
  rcases outcome : (setting.reading limit multiplier).readLimitedResponseBody setting.start response
    (ReadState.fresh (setting.start .gzip) state.reservation) with ⟨fault | value, after⟩
  all_goals rw [outcome] at limited
  · exact ⟨limited.1.1, _, limited.2⟩
  · intro limits moments leased
    have charged := limited.1.charged (by
      show (setting.requestLease.map _).isSome = true
      rw [leased]
      rfl)
    have held := limited.2 limits moments leased
    rw [charged.2, Nat.mul_comm] at held
    exact held

/-- **A target is reserved**, or it is no more than 256 MiB. -/
theorem reserveTarget_spec (limit multiplier target : ℕ) (content : Bytes) :
    Raise.Spec (Holding setting (content.length * multiplier))
      (setting.reserveTarget limit multiplier target content)
      (fun _ state => ∃ size, Holding setting size state ∧ content.length * multiplier ≤ size ∧
        (setting.requestLease.isSome = true → target ≤ size) ∧
          (setting.requestLease = none → target ≤ 256 * 1024 * 1024))
      (Left setting) := by
  refine Raise.Spec.ite (fun ⟨leased, _⟩ => ?_) fun nothing => Raise.Spec.ite
    (fun _ => ?_) fun small => ?_
  · refine (reserveMore_spec _).returning fun _ state holding =>
      ⟨_, holding, Nat.le_add_right _ _, fun _ => by omega, fun none => ?_⟩
    rw [none] at leased
    cases leased
  · exact throw_left _
  · refine Raise.Spec.pure fun state holding =>
      ⟨_, holding, Nat.le_refl _, fun leased => ?_, fun _ => by omega⟩
    have done : target - content.length * multiplier = 0 := by
      by_contra more
      exact nothing ⟨leased, more⟩
    omega

/-- A successful content has its graph reserved, if it looks like JSON. -/
theorem reserveSuccess_spec (limit multiplier : ℕ) (content : Bytes) :
    Raise.Spec (Holding setting (content.length * multiplier))
      (setting.reserveSuccess limit multiplier content)
      (fun _ => Reserved setting true true multiplier content) (Left setting) := by
  refine Raise.Spec.bind (fun _ => Holding setting (content.length * multiplier)) ?_ fun _ => ?_
  · exact Raise.Spec.ite (fun _ => runJsonCpu_spec) fun _ =>
      Raise.Spec.pure fun _ holding => holding
  cases kind : jsonPrefixKind content with
  | unsupported => exact throw_left _
  | other =>
    refine Raise.Spec.pure fun state holding =>
      ⟨_, holding, fun _ => ⟨Nat.le_refl _, fun mayBe => ?_⟩, fun _ mayBe => ?_⟩
    all_goals
      have isJson := mayBe.2.2
      rw [kind] at isJson
      cases isJson
  | json =>
    refine Raise.Spec.bind _ runJsonCpu_spec fun _ => ?_
    cases estimated : estimateJsonMemoryBytes responseJsonLimits content with
    | error _ => exact throw_left _
    | ok estimate =>
      refine (reserveTarget_spec limit multiplier estimate.estimatedBytes content).returning ?_
      rintro _ state ⟨size, holding, copies, leased, unleased⟩
      exact ⟨size, holding, fun lease => ⟨copies, fun _ => ⟨estimate, estimated, leased lease⟩⟩,
        fun none _ => ⟨estimate, estimated, unleased none⟩⟩

/-- **What may be parsed** is reserved. -/
theorem reserveStructure_spec (structured success : Bool) (limit multiplier : ℕ) (content : Bytes) :
    Raise.Spec (Holding setting (content.length * multiplier))
      (setting.reserveStructure structured success limit multiplier content)
      (fun _ => Reserved setting structured success multiplier content) (Left setting) := by
  have copiesOnly : (∀ mayBe : MayBeParsed structured success content, False) → ∀ {size state},
      Holding setting size state → content.length * multiplier ≤ size →
        Reserved setting structured success multiplier content state :=
    fun never _ _ holding copies =>
      ⟨_, holding, fun _ => ⟨copies, fun mayBe => (never mayBe).elim⟩,
        fun _ mayBe => (never mayBe).elim⟩
  refine Raise.Spec.ite (fun ⟨isStructured, _⟩ => ?_) fun skipped => ?_
  · cases success with
    | true =>
      subst isStructured
      exact reserveSuccess_spec limit multiplier content
    | false =>
      refine (reserveTarget_spec limit multiplier _ content).returning ?_
      rintro _ state ⟨size, holding, copies, -⟩
      exact copiesOnly (fun mayBe => Bool.false_ne_true mayBe.2.1) holding copies
  · refine Raise.Spec.pure fun state holding =>
      copiesOnly (fun mayBe => skipped ⟨mayBe.1, ?_⟩) holding (Nat.le_refl _)
    rintro rfl
    exact absurd mayBe.2.2 (by decide)

/-- **The content** keeps its copies reserved. -/
theorem contentOf_spec (success : Bool) (limit multiplier : ℕ) (limited : LimitedResponseBody) :
    Raise.Spec (Holding setting (limited.body.length * multiplier))
      (setting.contentOf success limit multiplier limited)
      (fun content => Holding setting (content.length * multiplier)) (Left setting) := by
  refine Raise.Spec.ite (fun _ => throw_left _) fun _ => Raise.Spec.ite (fun _ => ?_) fun _ => ?_
  · refine Raise.Spec.bind _ (reserveMore_spec _) fun _ => Raise.Spec.pure fun state holding => ?_
    rw [List.length_append, Nat.add_mul]
    exact holding
  · exact Raise.Spec.pure fun _ holding => holding

/-- The commit. -/
theorem commitAll_spec {structured success : Bool} {multiplier : ℕ} {content : Bytes} :
    Raise.Spec (Reserved setting structured success multiplier content)
      (setting.ifLeased fun _ moments => TemporaryResponseBytesReservation.commit moments)
      (fun _ => Buffered setting structured success multiplier content) (Left setting) := by
  refine ifLeased_spec (fun limits moments leased => ?_) fun unleased state ⟨_, _, _, small⟩ =>
    ⟨fun _ _ same => absurd (unleased.symm.trans same) nofun, small⟩
  rintro state ⟨size, holding, enough, -⟩
  refine (onReservation_spec TemporaryResponseBytesReservation.commit_spec).weaken
    (fun _ held => held)
    ?_ ?_ state ((holding_iff leased).mp holding)
  · rintro _ after ⟨_, _, committed⟩
    refine ⟨fun other ticks same => ?_, fun none => absurd (leased.symm.trans none) nofun⟩
    cases leased.symm.trans same
    exact ⟨size, committed, enough (by rw [leased]; rfl)⟩
  · rintro _ after ⟨fault, rfl, held⟩
    exact ((holding_iff leased).mpr held).left _

/-- **What is tried** commits enough, or leaves the reservation open. -/
theorem bufferContent_spec {formats : Coding → Format}
    {response : UpstreamResponse} {chunks : List Bytes}
    {limit multiplier : ℕ}
    (positive : 0 < limit) (weighted : 0 < multiplier)
    (inflates : ∀ coding,
      setting.zlib.Inflates (formats coding) (setting.start coding) (Holds coding))
    (streams : response.Streams coding chunks) (structured success : Bool) :
    Raise.Spec (Holding setting 0)
      (setting.bufferContent structured success limit multiplier response)
      (fun content => Buffered setting structured success multiplier content) (Left setting) := by
  refine Raise.Spec.bind _ (readLimited_spec positive weighted inflates streams) fun limited => ?_
  refine Raise.Spec.bind _ (contentOf_spec success limit multiplier limited) fun content => ?_
  refine Raise.Spec.bind _
    (reserveStructure_spec structured success limit multiplier content) fun _ => ?_
  exact Raise.Spec.bind _ commitAll_spec fun _ => Raise.Spec.pure fun _ buffered => buffered

/-- What is free is released. -/
theorem releasedAll_of {limits : ResponseLimits} {moments : ℕ → Moment}
    (leased : setting.requestLease = some (limits, moments)) {fault : ReadFault}
      (finished : fault ≠ .unfinished)
    (free : TemporaryResponseBytesReservation.Free limits state.reservation) :
    ReleasedAll setting fault state := by
  refine ⟨finished, fun other ticks same => ?_⟩
  cases leased.symm.trans same
  exact free

theorem releaseAll_spec {post : Bytes → BufferState → Prop} (fault : ReadFault) :
    Raise.Spec (Left setting fault)
      (setting.ifLeased TemporaryResponseBytesReservation.release >>= fun _ => Raise.throw fault)
      post (ReleasedAll setting) := by
  refine Raise.Spec.bind (fun _ => ReleasedAll setting fault) ?_ fun _ =>
    Raise.Spec.throw fun _ released => released
  refine ifLeased_spec (fun limits moments leased => ?_) fun unleased _ left =>
    ⟨left.1, fun _ _ same => absurd (unleased.symm.trans same) nofun⟩
  rintro state ⟨finished, size, holding⟩
  refine (onReservation_spec TemporaryResponseBytesReservation.release_spec).weaken
    (fun _ held => held)
    ?_ ?_ state ((holding_iff leased).mp holding)
  · exact fun _ after ⟨_, free⟩ => releasedAll_of leased finished free
  · rintro _ after ⟨raised, rfl, free⟩
    exact releasedAll_of leased nofun free

theorem makeReservation_spec :
    Raise.Spec (fun state => state = BufferState.fresh)
      (setting.ifLeased fun limits moments =>
        TemporaryResponseBytesReservation.reserveTemporaryResponseBytes limits moments 0)
      (fun _ => Holding setting 0) (ReleasedAll setting) := by
  refine ifLeased_spec (fun limits moments leased => ?_) fun unleased _ _ =>
    holding_of_none unleased
  refine (onReservation_spec
    (TemporaryResponseBytesReservation.reserveTemporaryResponseBytes_spec 0)).weaken
    (fun _ same => same ▸ rfl) (fun _ _ ⟨_, held⟩ => (holding_iff leased).mpr held) ?_
  rintro _ state ⟨raised, rfl, free⟩
  exact releasedAll_of leased nofun free

theorem limitOf_pos (statusCode : ℕ) : 0 < setting.limitOf statusCode := by
  unfold BufferSetting.limitOf upstreamSuccessBodyMaxBytes upstreamErrorBodyMaxBytes
  split <;> split <;> first | decide | exact Nat.le_max_left _ _

theorem multiplierOf_pos (reservationMultiplier : Option ℕ) :
    0 < BufferSetting.multiplierOf reservationMultiplier := by
  unfold BufferSetting.multiplierOf
  split
  · decide
  · exact (Nat.zero_lt_two).trans_le (Nat.le_max_left _ _)

/-- **A response is buffered** with enough committed for it, or everything is released. -/
theorem bufferBoundedResponse_spec {formats : Coding → Format}
    {response : UpstreamResponse} {chunks : List Bytes}
    (inflates : ∀ coding,
      setting.zlib.Inflates (formats coding) (setting.start coding) (Holds coding))
    (streams : response.Streams coding chunks) (statusCode : ℕ) (reservationMultiplier : Option ℕ) :
    Raise.Spec (fun state => state = BufferState.fresh)
      (setting.bufferBoundedResponse statusCode response reservationMultiplier)
      (fun value => Buffered setting reservationMultiplier.isNone
        (BufferSetting.isSuccess statusCode)
        (BufferSetting.multiplierOf reservationMultiplier) value.content)
      (ReleasedAll setting) := by
  refine Raise.Spec.bind _ makeReservation_spec fun _ => ?_
  refine Raise.Spec.bind _ (Raise.Spec.tryExcept _ (bufferContent_spec (limitOf_pos statusCode)
    (multiplierOf_pos reservationMultiplier) inflates streams _ _) releaseAll_spec)
    fun content => ?_
  exact Raise.Spec.pure fun _ buffered => buffered

end Specs

/-- **Upstream bodies are complete or flagged, and charged before use.** What is read is limited,
an incomplete stream that the limits do not cut raises, and what is buffered is committed for or
released. -/
theorem upstream_bodies_bounded {σ τ : Type} (setting : ReadSetting σ τ)
    (positive : 0 < setting.limit)
    (weighted : 0 < setting.reservationMultiplier) {formats : Coding → Format} {start : Coding → σ}
    {Holds : Coding → σ → Bytes → Bytes → Prop}
    (inflates : ∀ coding, setting.zlib.Inflates (formats coding) (start coding) (Holds coding))
    {response : UpstreamResponse} {coding : Option Coding} {chunks : List Bytes}
    (streams : response.Streams coding chunks) (idle : σ) (outside : τ) :
    Raise.Lands
      (fun value state => Limited setting formats coding chunks.flatten value state.events)
      (Failed setting)
      (setting.readLimitedResponseBody start response (ReadState.fresh idle outside)) ∧
    (¬ CompleteBody formats coding chunks.flatten →
      (decodedBody formats coding chunks.flatten).length ≤ setting.limit →
      chunks.flatten.length ≤ setting.limit + encodedOverheadAllowanceBytes →
        ∃ fault, (setting.readLimitedResponseBody start response (ReadState.fresh idle outside)).1 =
          .error (.raised fault)) ∧
    ∀ (buffer : BufferSetting σ), buffer.zlib = setting.zlib → buffer.start = start →
      ∀ (statusCode : ℕ) (reservationMultiplier : Option ℕ),
        Raise.Lands
          (fun value => Buffered buffer reservationMultiplier.isNone
            (BufferSetting.isSuccess statusCode)
            (BufferSetting.multiplierOf reservationMultiplier) value.content)
          (ReleasedAll buffer)
          (buffer.bufferBoundedResponse statusCode response reservationMultiplier
            BufferState.fresh) := by
  have read := readLimitedResponseBody_spec positive weighted inflates streams idle outside _ rfl
  refine ⟨read, fun incomplete fits below => ?_, fun buffer sameZlib sameStart statusCode given =>
    ?_⟩
  · rcases outcome : setting.readLimitedResponseBody start response (ReadState.fresh idle outside)
      with
      ⟨fault | value, after⟩
    all_goals rw [outcome] at read
    · cases fault with
      | raised fault => exact ⟨fault, rfl⟩
      | unfinished => exact absurd rfl read.1
    · exact absurd (Limited.raises read incomplete fits).2 (Nat.not_lt_of_le below)
  · subst sameStart
    exact bufferBoundedResponse_spec (fun coding =>
      sameZlib ▸ inflates coding) streams statusCode given _ rfl

/-- A gzip stream, and a zlib stream, of the letter A. -/
def letterStream : Coding → Bytes
  | .gzip => [31, 139, 8, 0, 0, 0, 0, 0, 4, 3, 1, 1, 0, 254, 255, 65, 139, 158, 217, 211, 1, 0, 0,
    0]
  | .deflate => [120, 156, 115, 4, 0, 0, 66, 0, 66]

def letterFormats (coding : Coding) : Format := .single (letterStream coding) 65

def letterStart (coding : Coding) : SingleState where
  stream := letterStream coding
  byte := 65
  consumed := []
  unused := []

theorem letter_inflates (coding : Coding) :
    Decompressor.single.Inflates (letterFormats coding) (letterStart coding)
      (SingleState.After (letterStream coding) 65) :=
  Decompressor.single_inflates 65 (by cases coding <;> decide)

/-- A read that nothing interrupts, reserved in a counter. -/
def letterReading (limit multiplier : ℕ) : ReadSetting SingleState ℕ where
  limit := limit
  reservationMultiplier := multiplier
  reserveBytes := some fun size => Raise.modify (· + size)
  zlib := .single
  interrupts _ := none

/-- A moment with nothing else reserved. -/
def calm : Moment where
  cancelled := false
  releaseRequested := false
  requestBodyBytes := 0
  requestResponseBytes := 0
  globalBodyBytes := 0
  globalResponseBytes := 0
  governorAllows _ := true

/-- A request with a lease. -/
def letterBuffer : BufferSetting SingleState where
  successBodyMaxBytes := none
  errorBodyMaxBytes := none
  requestLease := some (⟨1024, 1024, 1024, true⟩, fun _ => calm)
  zlib := .single
  start := letterStart
  readInterrupts _ := none
  interrupts _ := none

/-- A response that streams its raw chunks. -/
def rawResponse (encoding : String) (chunks : List Bytes) : UpstreamResponse where
  alreadyBounded := none
  contentEncoding := Utf8.points encoding
  isStreamConsumed := false
  rawChunks := some chunks
  byteChunks := none

theorem rawResponse_streams {encoding : String} {coding : Option Coding} (chunks : List Bytes)
    (isCoding : codingOf ((PyText.strip (Utf8.points encoding)).map PyText.lowerAscii) = some
      coding) :
    (rawResponse encoding chunks).Streams coding chunks := ⟨rfl, isCoding, .inl ⟨rfl, rfl⟩⟩

theorem codingOf_gzip :
    codingOf ((PyText.strip (Utf8.points "gzip")).map PyText.lowerAscii) = some (some .gzip) := by
      decide

/-- A gzip stream in two chunks is read whole and buffered, and its first chunk alone raises. -/
theorem upstream_bodies_bounded_letter :
    Raise.Lands (fun value state => Limited (letterReading 11 3) letterFormats (some .gzip)
        (letterStream .gzip) value state.events)
      (Failed (letterReading 11 3))
      ((letterReading 11 3).readLimitedResponseBody letterStart
        (rawResponse "gzip" [(letterStream .gzip).take 10, (letterStream .gzip).drop 10])
        (ReadState.fresh (letterStart .gzip) 0)) ∧
    Raise.Lands (fun value => Buffered letterBuffer true true 4 value.content)
      (ReleasedAll letterBuffer)
      (letterBuffer.bufferBoundedResponse 200
        (rawResponse "gzip" [(letterStream .gzip).take 10, (letterStream .gzip).drop 10]) none
        BufferState.fresh) ∧
    ∃ fault, ((letterReading 11 3).readLimitedResponseBody letterStart
      (rawResponse "gzip" [(letterStream .gzip).take 10])
      (ReadState.fresh (letterStart .gzip) 0)).1 = .error (.raised fault) := by
  have whole := upstream_bodies_bounded (letterReading 11 3) (by decide) (by decide) letter_inflates
    (rawResponse_streams [(letterStream .gzip).take 10, (letterStream .gzip).drop 10] codingOf_gzip)
    (letterStart .gzip) 0
  have cut := upstream_bodies_bounded (letterReading 11 3) (by decide) (by decide) letter_inflates
    (rawResponse_streams [(letterStream .gzip).take 10] codingOf_gzip) (letterStart .gzip) 0
  refine ⟨whole.1, whole.2.2 letterBuffer rfl rfl 200 none, cut.2.1 ?_ (by decide) (by decide)⟩
  show ¬ [(letterStream .gzip).take 10].flatten = letterStream .gzip
  decide

example : ((letterReading 11 3).readLimitedResponseBody letterStart
    (rawResponse "gzip" [(letterStream .gzip).take 10, (letterStream .gzip).drop 10])
    (ReadState.fresh (letterStart .gzip) 0)).1 =
      .ok { body := [65], truncated := false, observedBytesAtLeast := 1 } := by decide

/-- Raw bytes over the allowance are not decoded: the read ends, flagged. -/
theorem read_over_allowance (raw : Bytes) (long : 1 + encodedOverheadAllowanceBytes < raw.length) :
    ((letterReading 1 1).readLimitedResponseBody letterStart (rawResponse "gzip" [raw])
      (ReadState.fresh (letterStart .gzip) 0)).1 =
        .ok { body := [], truncated := true, observedBytesAtLeast := 2 } := by
  simp [ReadSetting.readLimitedResponseBody, ReadSetting.readBody, ReadSetting.chunkLoop,
    ReadSetting.readChunk, ReadSetting.await, ReadSetting.closeResponse, Raise.bind_apply,
      Raise.tryExcept,
    ReadState.fresh, letterReading, rawResponse, codingOf_gzip, long]

theorem estimate_pair : ∃ estimate, estimateJsonMemoryBytes responseJsonLimits [0x7B, 0x7D]
    = .ok estimate ∧
    estimate.estimatedBytes = 136 := by
  rw [estimateJsonMemoryBytes, Admission.JsonMemory.feedPython]
  dsimp only
  rw [if_neg (by decide), Admission.JsonMemory.scan_structural rfl rfl]
  simp [Admission.JsonMemory.structural, Admission.JsonMemory.scan_structural,
    Admission.JsonMemory.scan_nil, Admission.JsonMemory.countToken, Admission.JsonMemory.snapshot,
    Admission.JsonMemory.isOutsideSpecial, Admission.JsonMemory.ScanState.estimatedBytes,
    Admission.JsonMemory.ScanState.finishScalar, Raise.bind_apply, responseJsonLimits]

/-- An incomplete stream of 65538 zeros is returned, flagged, and a successful JSON body of a
caller with its own multiplier is committed with less than its estimate. -/
theorem capped_read_and_trusted_body :
    (∃ value, ((letterReading 1 1).readLimitedResponseBody letterStart
        (rawResponse "gzip" [List.replicate 65538 0]) (ReadState.fresh (letterStart .gzip) 0)).1
          = .ok value) ∧
      ¬ CompleteBody letterFormats (some .gzip) (List.replicate 65538 0) ∧
      (decodedBody letterFormats (some .gzip) (List.replicate 65538 0)).length ≤ 1 ∧
    (letterBuffer.bufferBoundedResponse 200 (rawResponse "" [[0x7B, 0x7D]]) (some 1)
      BufferState.fresh).1 = .ok { statusCode := 200, content := [0x7B, 0x7D] } ∧
      jsonPrefixKind [0x7B, 0x7D] = .json ∧
      ∃ estimate, estimateJsonMemoryBytes responseJsonLimits [0x7B, 0x7D] = .ok estimate ∧
        (letterBuffer.bufferBoundedResponse 200 (rawResponse "" [[0x7B, 0x7D]]) (some 1)
          BufferState.fresh).2.reservation.size < estimate.estimatedBytes := by
  refine ⟨⟨_, read_over_allowance _ ?_⟩, fun complete => ?_, ?_, by decide, by decide, ?_⟩
  · rw [List.length_replicate]
    decide
  · have sameLength := congrArg List.length (show List.replicate 65538 0
      = letterStream .gzip from complete)
    rw [List.length_replicate] at sameLength
    exact absurd sameLength (by decide)
  · show (if letterStream .gzip <+: List.replicate 65538 0 then [65] else []).length ≤ 1
    split
    · exact Nat.le_refl 1
    · exact Nat.zero_le 1
  · obtain ⟨estimate, estimated, isEstimate⟩ := estimate_pair
    refine ⟨estimate, estimated, ?_⟩
    rw [isEstimate]
    decide

end UniApi.Upstream
