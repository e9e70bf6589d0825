/-
**What a limited read returns.**

* `Kept`: what is kept of the bytes given so far, and that it was reserved first;
* `Passed`: where the zlib object is in the bytes passed so far;
* `retain_spec`, `decodeLoop_spec`, `chunkLoop_compressed`, `chunkLoop_identity`: loop by loop;
* `readBody_spec`: a body is a prefix of the decoded body, the whole of it, or flagged.
-/

import UniApi.Upstream.ResponseLimits

namespace UniApi.Upstream

open UniApi.Lib
open UniApi.Streaming (blocks blocks_flatten)

/-! ### Reserved and retained -/

def BodyEvent.reserved : BodyEvent → ℕ
  | .reserve size => size
  | .retain _ => 0

def BodyEvent.retained : BodyEvent → ℕ
  | .reserve _ => 0
  | .retain size => size

def reservedBytes (events : List BodyEvent) : ℕ := (events.map BodyEvent.reserved).sum

def retainedBytes (events : List BodyEvent) : ℕ := (events.map BodyEvent.retained).sum

/-- **At every moment** the bytes retained are reserved, with the multiplier. -/
def Ahead (multiplier : ℕ) (events : List BodyEvent) : Prop :=
  ∀ before, before <+: events → multiplier * retainedBytes before ≤ reservedBytes before

theorem reservedBytes_concat (events : List BodyEvent) (event : BodyEvent) :
    reservedBytes (events ++ [event]) = reservedBytes events + event.reserved := by
  rw [reservedBytes, List.map_append, List.sum_append]
  rfl

theorem retainedBytes_concat (events : List BodyEvent) (event : BodyEvent) :
    retainedBytes (events ++ [event]) = retainedBytes events + event.retained := by
  rw [retainedBytes, List.map_append, List.sum_append]
  rfl

theorem Ahead.concat {multiplier : ℕ} {events : List BodyEvent} (ahead : Ahead multiplier events)
    (event : BodyEvent)
    (enough : multiplier * (retainedBytes events + event.retained) ≤
      reservedBytes events + event.reserved) :
    Ahead multiplier (events ++ [event]) := by
  intro before isPrefix
  rcases List.prefix_concat_iff.mp isPrefix with whole | earlier
  · rw [whole, retainedBytes_concat, reservedBytes_concat]
    exact enough
  · exact ahead before earlier

/-- Reserved ahead, and exactly so in the end. -/
structure Balanced (multiplier : ℕ) (events : List BodyEvent) : Prop where
  ahead : Ahead multiplier events
  exact : reservedBytes events = multiplier * retainedBytes events

theorem Balanced.retain {multiplier : ℕ} {events : List BodyEvent}
    (balanced : Balanced multiplier events) (size : ℕ) :
    Balanced multiplier (events ++ [.reserve (size * multiplier)] ++ [.retain size]) := by
  have exact := balanced.exact
  refine ⟨(balanced.ahead.concat _ ?_).concat _ ?_, ?_⟩
  all_goals
    simp only [reservedBytes_concat, retainedBytes_concat, BodyEvent.reserved, BodyEvent.retained,
      exact]
    grind

/-- **What is kept** of the bytes given so far. -/
structure Kept {σ τ : Type} (setting : ReadSetting σ τ) (given body : Bytes)
    (events : List BodyEvent) : Prop where
  isTake : body = given.take setting.limit
  retained : retainedBytes events = body.length
  charged : setting.reserveBytes.isSome = true → Balanced setting.reservationMultiplier events

/-- The bytes retained are reserved, where there is a callback. -/
def Safe {σ τ : Type} (setting : ReadSetting σ τ) (events : List BodyEvent) : Prop :=
  setting.reserveBytes.isSome = true → Ahead setting.reservationMultiplier events

/-- What a read leaves that raises: no step was missing, and the bytes are reserved ahead. -/
def Failed {σ τ : Type} (setting : ReadSetting σ τ) (fault : ReadFault) (state : ReadState σ τ) :
    Prop :=
  fault ≠ .unfinished ∧ Safe setting state.events

section Specs

variable {σ τ : Type} {setting : ReadSetting σ τ} {given : Bytes} {seen : ReadState σ τ}

theorem Kept.safe (kept : Kept setting given seen.body seen.events) : Safe setting seen.events :=
  fun callback => (kept.charged callback).ahead

theorem Kept.failed (kept : Kept setting given seen.body seen.events) (fault : UpstreamFault) :
    Failed setting (.raised fault) seen := ⟨nofun, kept.safe⟩

theorem await_spec (safe : Safe setting seen.events) :
    Raise.Spec (fun state => state = seen) setting.await
      (fun _ state => state = { seen with awaits := seen.awaits + 1 }) (Failed setting) := by
  refine Raise.Spec.bind_get_at ?_
  refine Raise.Spec.bind _ Raise.Spec.modify_at fun _ => ?_
  cases setting.interrupts seen.awaits with
  | none => exact Raise.Spec.pure fun _ same => same
  | some fault => exact Raise.Spec.throw fun state same => same ▸ ⟨nofun, safe⟩

theorem closeResponse_spec (safe : Safe setting seen.events) :
    Raise.Spec (fun state => state = seen) setting.closeResponse
      (fun _ state => state = { seen with awaits := seen.awaits + 1, closed := true })
        (Failed setting) :=
  Raise.Spec.bind _ (await_spec safe) fun _ => Raise.Spec.modify_at

theorem take_grows (limit : ℕ) (more : Bytes) :
    (given ++ more).take limit =
      given.take limit ++ more.take (limit - (given.take limit).length) := by
  rw [List.take_append, List.length_take]
  by_cases fits : given.length ≤ limit
  · rw [Nat.min_eq_right fits]
  · rw [Nat.min_eq_left (by omega), Nat.sub_self, Nat.sub_eq_zero_of_le (by omega)]

theorem callback_spec (kept : Kept setting given seen.body seen.events)
    (callback : ℕ → Raise UpstreamFault τ Unit) (size : ℕ) :
    Raise.Spec (fun state => state = seen) (setting.reserve callback size)
      (fun _ state => ∃ outside,
        state = { seen with outside := outside, events := seen.events ++ [.reserve size] })
      (Failed setting) := by
  rintro state rfl
  unfold ReadSetting.reserve
  rcases callback size state.outside with ⟨fault | done, outside⟩
  · exact kept.failed fault
  · exact ⟨outside, rfl⟩

/-- **Keeping** reserves first. -/
theorem keep_spec (decoded : Bytes) {retained : Bytes}
    (kept : Kept setting given seen.body seen.events)
    (fits : (given ++ decoded).take setting.limit = seen.body ++ retained) :
    Raise.Spec (fun state => state = seen) (setting.keep retained)
      (fun _ state => Kept setting (given ++ decoded) state.body state.events ∧
        state.decompressor = seen.decompressor ∧ state.rawObserved = seen.rawObserved ∧
          state.truncated = seen.truncated)
      (Failed setting) := by
  refine Raise.Spec.ite (fun nothing => ?_) fun _ => ?_
  · refine Raise.Spec.pure fun state same => ?_
    subst same
    refine ⟨⟨?_, kept.retained, kept.charged⟩, rfl, rfl, rfl⟩
    rw [fits, nothing, List.append_nil]
  · refine Raise.Spec.bind (fun _ (state : ReadState σ τ) => state.body = seen.body ∧
      (∃ reserves, state.events = seen.events ++ reserves ∧ retainedBytes state.events
        = seen.body.length ∧
        (setting.reserveBytes.isSome = true →
          reserves = [.reserve (retained.length * setting.reservationMultiplier)])) ∧
      state.decompressor = seen.decompressor ∧ state.rawObserved = seen.rawObserved ∧
        state.truncated = seen.truncated) ?_ fun _ => Raise.Spec.modify ?_
    · unfold ReadSetting.charge
      cases callback : setting.reserveBytes with
      | none =>
        refine Raise.Spec.pure fun state same => ?_
        subst same
        exact ⟨rfl, ⟨[], (List.append_nil _).symm, kept.retained, nofun⟩, rfl, rfl, rfl⟩
      | some reserve =>
        refine (callback_spec kept reserve _).returning ?_
        rintro _ state ⟨outside, rfl⟩
        refine ⟨rfl, ⟨_, rfl, ?_, fun _ => rfl⟩, rfl, rfl, rfl⟩
        rw [retainedBytes_concat, kept.retained]
        rfl
    · rintro state ⟨sameBody, ⟨reserves, events, retainedSoFar, isReserve⟩, sameObject, sameRaw,
        sameFlag⟩
      refine ⟨⟨?_, ?_, fun given => ?_⟩, sameObject, sameRaw, sameFlag⟩
      · rw [fits, sameBody]
      · rw [retainedBytes_concat, retainedSoFar, sameBody, List.length_append]
        rfl
      · rw [events, isReserve given]
        exact (kept.charged given).retain retained.length

/-- **Retaining** keeps what fits, and flags what does not. -/
theorem retain_spec (kept : Kept setting given seen.body seen.events) (decoded : Bytes) :
    Raise.Spec (fun state => state = seen) (setting.retain decoded)
      (fun goesOn state => Kept setting (given ++ decoded) state.body state.events ∧
        state.decompressor = seen.decompressor ∧ state.rawObserved = seen.rawObserved ∧
        goesOn = decide (decoded.length ≤ setting.limit - seen.body.length) ∧
        state.truncated = (seen.truncated || !goesOn))
      (Failed setting) := by
  refine Raise.Spec.bind _ Raise.Spec.modify_at fun _ => Raise.Spec.bind_get_at ?_
  refine Raise.Spec.bind _ (keep_spec decoded kept ?_) fun _ => ?_
  · rw [take_grows, ← kept.isTake]
  refine Raise.Spec.ite (fun beyond => ?_) fun fits => ?_
  · refine Raise.Spec.bind (fun _ (state : ReadState σ τ) =>
      Kept setting (given ++ decoded) state.body state.events ∧
        state.decompressor = seen.decompressor ∧ state.rawObserved = seen.rawObserved ∧
          state.truncated = true) (Raise.Spec.modify ?_) fun _ => Raise.Spec.pure ?_
    · exact fun state ⟨keeps, sameObject, sameRaw, _⟩ => ⟨keeps, sameObject, sameRaw, rfl⟩
    · rintro state ⟨keeps, sameObject, sameRaw, flagged⟩
      refine ⟨keeps, sameObject, sameRaw, (decide_eq_false (Nat.not_le_of_gt beyond)).symm, ?_⟩
      rw [flagged]
      exact (Bool.or_true _).symm
  · refine Raise.Spec.pure fun state ⟨keeps, sameObject, sameRaw, sameFlag⟩ => ?_
    refine ⟨keeps, sameObject, sameRaw, (decide_eq_true (Nat.le_of_not_gt fits)).symm, ?_⟩
    rw [sameFlag]
    exact (Bool.or_false _).symm

theorem retainAny_spec (kept : Kept setting given seen.body seen.events) (decoded : Bytes) :
    Raise.Spec (fun state => state = seen) (setting.retainAny decoded)
      (fun goesOn state => Kept setting (given ++ decoded) state.body state.events ∧
        state.decompressor = seen.decompressor ∧ state.rawObserved = seen.rawObserved ∧
        goesOn = decide (decoded.length ≤ setting.limit - seen.body.length) ∧
        state.truncated = (seen.truncated || !goesOn))
      (Failed setting) := by
  refine Raise.Spec.ite (fun nothing => ?_) fun _ => retain_spec kept decoded
  refine Raise.Spec.pure fun state same => ?_
  subst same nothing
  rw [List.append_nil]
  exact ⟨kept, rfl, rfl, (decide_eq_true (Nat.zero_le _)).symm, (Bool.or_false _).symm⟩

end Specs

/-! ### Decoding -/

/-- **Where the zlib object is**: of the `source` it holds what it consumed, the bytes behind its
end are unused, and `pending` bytes are to be passed. -/
structure Passed {σ τ : Type} (setting : ReadSetting σ τ) (Holds : σ → Bytes → Bytes → Prop)
    (source pending consumed given : Bytes) (decompressor : σ) (truncated : Bool) : Prop where
  holds : Holds decompressor consumed given
  within : consumed <+: source
  beyond : truncated = true → setting.limit < given.length
  all : truncated = false → given.length ≤ setting.limit ∧
    source = consumed ++ (setting.zlib.unusedData decompressor ++ pending)

/-- The state of a read in the bytes of the `source`. -/
def Reading {σ τ : Type} (setting : ReadSetting σ τ) (Holds : σ → Bytes → Bytes → Prop)
    (source pending : Bytes) (state : ReadState σ τ) : Prop :=
  ∃ consumed given, Passed setting Holds source pending consumed given state.decompressor
    state.truncated ∧
    Kept setting given state.body state.events

section Decoding

variable {σ τ : Type} {setting : ReadSetting σ τ} {format : Format} {start : σ}
  {Holds : σ → Bytes → Bytes → Prop} {source pending consumed given : Bytes} {seen : ReadState σ τ}

/-- **A call of the object** returns what it does, and may raise. -/
theorem onZlib_spec (kept : Kept setting given seen.body seen.events)
    (call : σ → Except Unit (Bytes × σ)) :
    Raise.Spec (fun state => state = seen) (setting.onZlib call)
      (fun output state => ∃ decompressor, call seen.decompressor = .ok (output, decompressor) ∧
        state = { seen with awaits := seen.awaits + 1, decompressor := decompressor })
      (Failed setting) := by
  refine Raise.Spec.bind _ (await_spec kept.safe) fun _ => Raise.Spec.bind_get_at ?_
  dsimp only
  cases returned : call seen.decompressor with
  | error => exact Raise.Spec.throw fun state same => same ▸ kept.failed .zlibError
  | ok result =>
    obtain ⟨output, decompressor⟩ := result
    refine Raise.Spec.bind _ Raise.Spec.modify_at fun _ => Raise.Spec.pure ?_
    exact fun state same => ⟨decompressor, rfl, same⟩

/-- One call of `decompress` on the pending bytes. -/
theorem Passed.step (inflates : setting.zlib.Inflates format start Holds) {decompressor after : σ}
    (reads : Passed setting Holds source pending consumed given decompressor false) {size : ℕ}
    {output : Bytes} (returned : setting.zlib.decompress pending size decompressor = .ok
      (output, after)) :
    ∃ used, Holds after (consumed ++ used) (given ++ output) ∧ consumed ++ used <+: source ∧
      source = consumed ++ used ++
        (setting.zlib.unusedData after ++ setting.zlib.unconsumedTail after) := by
  obtain ⟨⟨used, input, later⟩, -⟩ := inflates.decompress reads.holds returned
  obtain ⟨-, whole⟩ := reads.all rfl
  rw [input] at whole
  have order : setting.zlib.unconsumedTail after ++ setting.zlib.unusedData after =
      setting.zlib.unusedData after ++ setting.zlib.unconsumedTail after := by
    cases ended : setting.zlib.eof after with
    | true => rw [(inflates.ended later ended).2.2, List.append_nil, List.nil_append]
    | false => rw [inflates.running later ended, List.append_nil, List.nil_append]
  rw [order, ← List.append_assoc] at whole
  exact ⟨used, later, ⟨_, whole.symm⟩, whole⟩

/-- **The loop over pending bytes** passes them all, or truncates. -/
theorem decodeLoop_spec (inflates : setting.zlib.Inflates format start Holds) (fuel : ℕ)
    {pending : Bytes}
    (reading : Reading setting Holds source pending seen)
    (room : setting.limit - seen.body.length + pending.length < fuel) :
    Raise.Spec (fun state => state = seen) (setting.decodeLoop fuel pending)
      (fun _ state => Reading setting Holds source [] state ∧ state.rawObserved = seen.rawObserved)
      (Failed setting) := by
  induction fuel generalizing pending seen with
  | zero => exact absurd room (Nat.not_lt_zero _)
  | succ fuel ih =>
    obtain ⟨consumed, given, reads, kept⟩ := reading
    refine Raise.Spec.bind_get_at ?_
    refine Raise.Spec.ite (fun stops => ?_) fun goes => ?_
    · refine Raise.Spec.pure fun state same => ?_
      subst same
      refine ⟨⟨consumed, given, ⟨reads.holds, reads.within, reads.beyond, fun below => ?_⟩, kept⟩,
        rfl⟩
      rcases stops with nothing | truncated
      · rw [← nothing]
        exact reads.all below
      · rw [truncated] at below
        cases below
    rw [not_or, Bool.not_eq_true] at goes
    obtain ⟨some, below⟩ := goes
    rw [below] at reads
    refine Raise.Spec.bind _ (onZlib_spec kept _) fun output => Raise.Spec.exists fun after =>
      Raise.Spec.given fun returned => ?_
    obtain ⟨used, holds, within, whole⟩ := reads.step inflates returned
    have shorter := inflates.tail_length reads.holds returned
    refine Raise.Spec.bind_get_at ?_
    refine Raise.Spec.bind _ (@retainAny_spec σ τ setting given
      { seen with awaits := seen.awaits + 1, decompressor := after } kept output) fun goesOn => ?_
    refine Raise.spec_at_each fun state ⟨keeps, sameObject, sameRaw, isGoesOn, flag⟩ => ?_
    have bound : given.length ≤ setting.limit := (reads.all rfl).1
    have sameBody : seen.body = given := by
      rw [kept.isTake, List.take_of_length_le bound]
    have flagged : state.truncated = !goesOn := by
      rw [flag]
      exact below ▸ Bool.false_or _
    dsimp only at isGoesOn sameObject sameRaw
    rw [sameBody] at isGoesOn
    have total : (given ++ output).length = given.length + output.length := List.length_append
    cases goesOn with
    | false =>
      have beyond := of_decide_eq_false isGoesOn.symm
      refine Raise.Spec.ite (fun _ => ?_) fun other => absurd rfl other
      refine Raise.Spec.pure fun last same => ?_
      subst same
      refine ⟨⟨consumed ++ used, given ++ output,
        ⟨sameObject ▸ holds, within, fun _ => by omega, ?_⟩, keeps⟩,
        sameRaw⟩
      rw [flagged]
      exact nofun
    | true =>
      have fits := of_decide_eq_true isGoesOn.symm
      have newBody : state.body.length = given.length + output.length := by
        rw [keeps.isTake, List.take_of_length_le (by omega), total]
      have next : Reading setting Holds source (setting.zlib.unconsumedTail after) state := by
        refine ⟨consumed ++ used, given ++ output,
          ⟨sameObject ▸ holds, within, ?_, fun _ => ⟨by omega, ?_⟩⟩,
          keeps⟩
        · rw [flagged]
          exact nofun
        · rw [sameObject]
          exact whole
      refine Raise.Spec.ite (fun other => absurd other Bool.false_ne_true) fun _ => ?_
      refine Raise.Spec.ite (fun stuck => ?_) fun moves => ?_
      · exact Raise.Spec.throw fun _ same => same ▸ keeps.failed _
      · refine (ih next ?_).returning fun _ last ⟨done, raw⟩ => ⟨done, raw.trans sameRaw⟩
        rw [newBody]
        rw [sameBody] at room
        rcases Nat.eq_zero_or_pos output.length with none | grows
        · have nothing : output = [] := List.length_eq_zero_iff.mp none
          by_cases last : setting.zlib.unconsumedTail after = []
          · rw [last, List.length_nil]
            have pendingBytes := List.length_pos_of_ne_nil some
            omega
          · have less : ¬ (setting.zlib.unconsumedTail after).length ≥ pending.length := fun same =>
              moves ⟨last, nothing, same⟩
            omega
        · omega

theorem Reading.more (reading : Reading setting Holds source [] seen) (slice : Bytes) :
    Reading setting Holds (source ++ slice) slice seen := by
  obtain ⟨consumed, given, reads, kept⟩ := reading
  refine ⟨consumed, given, ⟨reads.holds, reads.within.trans (List.prefix_append _ _), reads.beyond,
    fun below => ⟨(reads.all below).1, ?_⟩⟩, kept⟩
  have whole := (reads.all below).2
  rw [List.append_nil] at whole
  rw [whole, List.append_assoc]

theorem Reading.behind (reading : Reading setting Holds source [] seen)
    (truncated : seen.truncated = true)
    (more : Bytes) : Reading setting Holds (source ++ more) [] seen := by
  obtain ⟨consumed, given, reads, kept⟩ := reading
  refine ⟨consumed, given, ⟨reads.holds, reads.within.trans (List.prefix_append _ _), reads.beyond,
    fun below => ?_⟩, kept⟩
  rw [truncated] at below
  cases below

/-- **The loop over slices** passes them all, or truncates. -/
theorem sliceLoop_spec (inflates : setting.zlib.Inflates format start Holds) (slices : List Bytes)
    (reading : Reading setting Holds source [] seen) :
    Raise.Spec (fun state => state = seen) (setting.sliceLoop slices)
      (fun _ state => Reading setting Holds (source ++ slices.flatten) [] state ∧
        state.rawObserved = seen.rawObserved)
      (Failed setting) := by
  induction slices generalizing source seen with
  | nil =>
    refine Raise.Spec.pure fun state same => ?_
    rw [same, List.flatten_nil, List.append_nil]
    exact ⟨reading, rfl⟩
  | cons slice rest ih =>
    refine Raise.Spec.bind _
      (decodeLoop_spec inflates _ (reading.more slice) (by omega)) fun _ => ?_
    refine Raise.Spec.bind_get fun between ⟨later, sameRaw⟩ => ?_
    rw [List.flatten_cons, ← List.append_assoc]
    refine Raise.Spec.ite (fun truncated => ?_) fun _ => ?_
    · refine Raise.Spec.pure fun state same => ?_
      rw [same]
      exact ⟨later.behind truncated _, sameRaw⟩
    · exact (ih later).returning fun _ state ⟨done, raw⟩ => ⟨done, raw.trans sameRaw⟩

/-- **What a read leaves** of a body that decodes so. -/
structure Bounded {σ τ : Type} (setting : ReadSetting σ τ) (compressed : Bool)
    (decoded : Bytes → Bytes) (Complete : Bytes → Prop) (raw : Bytes)
    (state : ReadState σ τ) : Prop where
  isPrefix : state.body <+: decoded raw
  length : state.body.length ≤ setting.limit
  whole : state.truncated = false → Complete raw ∧ state.body = decoded raw
  flagged : state.truncated = true → setting.limit < (decoded raw).length ∨
    (compressed = true ∧ setting.limit + encodedOverheadAllowanceBytes < raw.length)
  retained : retainedBytes state.events = state.body.length
  charged : setting.reserveBytes.isSome = true → Balanced setting.reservationMultiplier state.events

/-- Bytes kept of a part of the decoded body. -/
theorem Bounded.of_kept {compressed : Bool} {decoded : Bytes → Bytes} {Complete : Bytes → Prop}
    {raw : Bytes}
    (kept : Kept setting given seen.body seen.events) (within : given <+: decoded raw)
    (whole : seen.truncated = false → Complete raw ∧ seen.body = decoded raw)
    (flagged : seen.truncated = true → setting.limit < (decoded raw).length ∨
      (compressed = true ∧ setting.limit + encodedOverheadAllowanceBytes < raw.length)) :
    Bounded setting compressed decoded Complete raw seen where
  isPrefix := kept.isTake ▸ (List.take_prefix _ _).trans within
  length := by
    rw [kept.isTake, List.length_take]
    exact Nat.min_le_left _ _
  whole := whole
  flagged := flagged
  retained := kept.retained
  charged := kept.charged

/-- **A truncated read** is bounded, whatever comes behind. -/
theorem Reading.bounded (inflates : setting.zlib.Inflates format start Holds)
    (reading : Reading setting Holds source [] seen) (truncated : seen.truncated = true)
    (more : Bytes) :
    Bounded setting true format.decoded format.Complete (source ++ more) seen := by
  obtain ⟨consumed, given, reads, kept⟩ := reading
  obtain ⟨between, isSource⟩ := reads.within
  have within : given <+: format.decoded (source ++ more) := by
    rw [← isSource, List.append_assoc]
    exact (inflates.given_prefix reads.holds).trans (format.decoded_prefix _ _)
  refine .of_kept kept within (fun below => ?_) fun _ =>
    .inl ((reads.beyond truncated).trans_le within.length_le)
  rw [truncated] at below
  cases below

/-- **The flush behind the end** of a complete stream gives nothing. -/
theorem flushLoop_spec (inflates : setting.zlib.Inflates format start Holds)
    (kept : Kept setting given seen.body seen.events)
    (holds : Holds seen.decompressor consumed given)
    (ended : setting.zlib.eof seen.decompressor = true) (fuel : ℕ) :
    Raise.Spec (fun state => state = seen) (setting.flushLoop (fuel + 1))
      (fun _ state => state.body = seen.body ∧ state.events = seen.events ∧
        state.truncated = seen.truncated)
      (Failed setting) := by
  refine Raise.Spec.bind_get_at ?_
  refine Raise.Spec.bind _ (onZlib_spec kept _) fun tail => Raise.Spec.exists fun after =>
    Raise.Spec.given fun returned => ?_
  have nothing := inflates.flush_ended holds ended returned
  refine Raise.Spec.ite (fun _ => Raise.Spec.pure fun state same => ?_) fun more =>
    absurd nothing more
  rw [same]
  exact ⟨rfl, rfl, rfl⟩

/-- Between two chunks: everything so far is passed, and nothing is unused. -/
structure Between {σ τ : Type} (setting : ReadSetting σ τ) (Holds : σ → Bytes → Bytes → Prop)
  (source : Bytes)
    (state : ReadState σ τ) : Prop where
  reading : Reading setting Holds source [] state
  below : state.truncated = false
  used : setting.zlib.unusedData state.decompressor = []
  counted : state.rawObserved = source.length

/-- The slices of a compressed chunk leave nothing unused. -/
theorem passChunk_compressed (inflates : setting.zlib.Inflates format start Holds) (raw : Bytes)
    (reading : Reading setting Holds source [] seen) :
    Raise.Spec (fun state => state = seen) (setting.passChunk true raw)
      (fun _ state => Reading setting Holds (source ++ raw) [] state ∧
        state.rawObserved = seen.rawObserved ∧ setting.zlib.unusedData state.decompressor = [])
      (Failed setting) := by
  have slices : (blocks decodeChunkBytes raw.length raw).flatten = raw :=
    blocks_flatten _ _ _ (Nat.le_refl raw.length)
  rw [ReadSetting.passChunk, if_pos rfl]
  refine Raise.Spec.bind _ (sliceLoop_spec inflates _ reading) fun _ => ?_
  rw [slices]
  refine Raise.Spec.bind_get fun after ⟨later, sameRaw⟩ => ?_
  obtain ⟨_, _, _, kept⟩ := id later
  refine Raise.Spec.ite (fun _ => ?_) fun used => ?_
  · exact Raise.Spec.throw fun state same => same ▸ kept.failed _
  · exact Raise.Spec.pure fun state same => same ▸ ⟨later, sameRaw, not_not.mp used⟩

/-- **One compressed chunk**: the loop goes on between chunks, or a truncation is bounded. -/
theorem readChunk_compressed (inflates : setting.zlib.Inflates format start Holds) (raw : Bytes)
    (between : Between setting Holds source seen) :
    Raise.Spec (fun state => state = seen) (setting.readChunk true raw)
      (fun goesOn state =>
        if goesOn then Between setting Holds (source ++ raw) state
        else ∀ more,
          Bounded setting true format.decoded format.Complete (source ++ raw ++ more) state)
      (Failed setting) := by
  obtain ⟨consumed, given, reads, kept⟩ := between.reading
  refine Raise.Spec.bind _ Raise.Spec.modify_at fun _ => Raise.Spec.bind_get_at ?_
  refine Raise.Spec.ite (fun ⟨_, capped⟩ => ?_) fun _ => ?_
  · refine Raise.Spec.bind _ Raise.Spec.modify_at fun _ => ?_
    refine Raise.Spec.bind _ (closeResponse_spec kept.safe) fun _ => Raise.Spec.pure ?_
    rintro state rfl
    refine fun more => .of_kept kept ?_ nofun fun _ => .inr ⟨rfl, ?_⟩
    · have whole := (reads.all between.below).2
      rw [between.used, List.append_nil, List.append_nil] at whole
      rw [whole, List.append_assoc]
      exact (inflates.given_prefix reads.holds).trans (format.decoded_prefix _ _)
    · rw [between.counted] at capped
      rw [List.length_append, List.length_append]
      exact Nat.lt_of_lt_of_le capped (Nat.le_add_right _ _)
  · have here : Reading setting Holds source []
        { seen with rawObserved := seen.rawObserved + raw.length } := ⟨consumed, given, reads, kept⟩
    refine Raise.Spec.bind _ (passChunk_compressed inflates raw here) fun _ => ?_
    refine Raise.Spec.bind_get fun after ⟨later, sameRaw, used⟩ => ?_
    refine Raise.Spec.ite (fun truncated => ?_) fun below => ?_
    · obtain ⟨_, _, _, keeps⟩ := id later
      refine Raise.Spec.bind _ (closeResponse_spec keeps.safe) fun _ => Raise.Spec.pure ?_
      rintro state rfl more
      have bounded := Reading.bounded inflates later truncated more
      exact ⟨bounded.isPrefix, bounded.length, bounded.whole, bounded.flagged, bounded.retained,
        bounded.charged⟩
    · refine Raise.Spec.pure fun state same => ?_
      subst same
      refine ⟨later, Bool.eq_false_iff.mpr below, used, ?_⟩
      rw [sameRaw, List.length_append, ← between.counted]

/-- **The loop over compressed chunks** gives a bounded body. -/
theorem chunkLoop_compressed (inflates : setting.zlib.Inflates format start Holds)
    (chunks : List Bytes)
    (between : Between setting Holds source seen) :
    Raise.Spec (fun state => state = seen) (setting.chunkLoop true chunks)
      (fun _ => Bounded setting true format.decoded format.Complete (source ++ chunks.flatten))
      (Failed setting) := by
  induction chunks generalizing source seen with
  | nil =>
    obtain ⟨consumed, given, reads, kept⟩ := between.reading
    obtain ⟨bound, whole⟩ := reads.all between.below
    rw [between.used, List.append_nil, List.append_nil] at whole
    subst whole
    refine Raise.Spec.bind _ (await_spec kept.safe) fun _ => Raise.Spec.bind_get_at ?_
    refine Raise.Spec.ite (fun _ => ?_) fun ended => ?_
    · exact Raise.Spec.throw fun state same => same ▸ kept.failed _
    · have isEnd : setting.zlib.eof seen.decompressor = true := by simpa using ended
      obtain ⟨complete, all, -⟩ := inflates.ended reads.holds isEnd
      refine (@flushLoop_spec σ τ setting format start Holds source given
        { seen with awaits := seen.awaits + 1 } inflates kept reads.holds isEnd _).returning ?_
      rintro _ state ⟨sameBody, sameEvents, sameFlag⟩
      have keeps : Kept setting given state.body state.events := by
        rw [sameBody, sameEvents]
        exact kept
      rw [List.flatten_nil, List.append_nil]
      refine .of_kept keeps (all ▸ List.prefix_rfl) (fun _ => ⟨complete, ?_⟩) fun truncated => ?_
      · rw [keeps.isTake, List.take_of_length_le bound, all]
      · rw [sameFlag] at truncated
        exact absurd truncated (Bool.eq_false_iff.mp between.below)
  | cons raw rest ih =>
    obtain ⟨_, _, _, kept⟩ := id between.reading
    refine Raise.Spec.bind _ (await_spec kept.safe) fun _ => ?_
    have here : Between setting Holds source { seen with awaits := seen.awaits + 1 } :=
      ⟨between.reading, between.below, between.used, between.counted⟩
    refine Raise.Spec.bind _ (readChunk_compressed inflates raw here) fun goesOn => ?_
    rw [List.flatten_cons, ← List.append_assoc]
    refine Raise.spec_at_each fun after done => Raise.Spec.ite (fun goes => ?_) fun stops => ?_
    · rw [if_pos goes] at done
      exact ih done
    · rw [if_neg stops] at done
      exact Raise.Spec.pure fun state same => same ▸ done _

end Decoding

/-! ### Copying -/

/-- **What is kept of an identity body**: all of the source, or more of it than the limit. -/
def Copying {σ τ : Type} (setting : ReadSetting σ τ) (source : Bytes) (state : ReadState σ τ) :
    Prop :=
  ∃ given, Kept setting given state.body state.events ∧ given <+: source ∧
    (state.truncated = true → setting.limit < given.length) ∧
      (state.truncated = false → given = source ∧ given.length ≤ setting.limit)

section Copying

variable {σ τ : Type} {setting : ReadSetting σ τ} {source : Bytes} {seen : ReadState σ τ}

/-- **The loop over identity slices** keeps them all, or truncates. -/
theorem copyLoop_spec (slices : List Bytes) (copying : Copying setting source seen)
    (below : seen.truncated = false) :
    Raise.Spec (fun state => state = seen) (setting.copyLoop slices)
      (fun _ state => Copying setting (source ++ slices.flatten) state)
      (Failed setting) := by
  induction slices generalizing source seen with
  | nil =>
    refine Raise.Spec.pure fun state same => ?_
    rw [same, List.flatten_nil, List.append_nil]
    exact copying
  | cons slice rest ih =>
    obtain ⟨given, kept, -, -, all⟩ := copying
    obtain ⟨rfl, bound⟩ := all below
    have sameBody : seen.body = given := by
      rw [kept.isTake, List.take_of_length_le bound]
    refine Raise.Spec.bind _ (retain_spec kept slice) fun goesOn => ?_
    refine Raise.spec_at_each fun state ⟨keeps, _, _, isGoesOn, flag⟩ => ?_
    rw [below, Bool.false_or] at flag
    rw [sameBody] at isGoesOn
    have total : (given ++ slice).length = given.length + slice.length := List.length_append
    rw [List.flatten_cons, ← List.append_assoc]
    refine Raise.Spec.ite (fun goes => ?_) fun stops => ?_
    · have fits := of_decide_eq_true (isGoesOn.symm.trans goes)
      have still : state.truncated = false := by rw [flag, goes]; rfl
      refine ih ⟨_, keeps, List.prefix_rfl, fun truncated => ?_, fun _ => ⟨rfl, by omega⟩⟩ still
      rw [still] at truncated
      cases truncated
    · have beyond := of_decide_eq_false (isGoesOn.symm.trans (Bool.eq_false_iff.mpr stops))
      refine Raise.Spec.pure fun last same => ?_
      subst same
      refine ⟨_, keeps, List.prefix_append _ _, fun _ => by omega, fun notTruncated => ?_⟩
      rw [flag, Bool.eq_false_iff.mpr stops] at notTruncated
      cases notTruncated

theorem Copying.bounded (copying : Copying setting source seen) {more : Bytes}
    (last : seen.truncated = true ∨ more = []) :
    Bounded setting false (fun raw => raw) (fun _ => True) (source ++ more) seen := by
  obtain ⟨given, kept, within, beyond, all⟩ := copying
  have longer := within.trans (List.prefix_append source more)
  refine .of_kept kept longer (fun below => ?_) fun truncated => .inl
    ((beyond truncated).trans_le longer.length_le)
  obtain ⟨rfl, bound⟩ := all below
  rcases last with truncated | rfl
  · rw [below] at truncated
    cases truncated
  · refine ⟨trivial, ?_⟩
    rw [List.append_nil, kept.isTake, List.take_of_length_le bound]

/-- **The loop over identity chunks** gives a bounded body. -/
theorem chunkLoop_identity (chunks : List Bytes) (copying : Copying setting source seen)
    (below : seen.truncated = false) :
    Raise.Spec (fun state => state = seen) (setting.chunkLoop false chunks)
      (fun _ => Bounded setting false (fun raw => raw) (fun _ => True) (source ++ chunks.flatten))
      (Failed setting) := by
  induction chunks generalizing source seen with
  | nil =>
    obtain ⟨_, kept, _⟩ := id copying
    refine Raise.Spec.bind _ (await_spec kept.safe) fun _ => ?_
    refine Raise.Spec.ite (fun other => absurd other Bool.false_ne_true) fun _ => Raise.Spec.pure ?_
    rintro state rfl
    have bounded := copying.bounded (.inr (rfl : ([] : Bytes) = []))
    exact ⟨bounded.isPrefix, bounded.length, bounded.whole, bounded.flagged, bounded.retained,
      bounded.charged⟩
  | cons raw rest ih =>
    obtain ⟨given, kept, within, beyond, all⟩ := id copying
    have slices : (blocks decodeChunkBytes raw.length raw).flatten = raw :=
      blocks_flatten _ _ _ (Nat.le_refl raw.length)
    refine Raise.Spec.bind _ (await_spec kept.safe) fun _ => ?_
    have here : Copying setting source
        { seen with awaits := seen.awaits + 1, rawObserved := seen.rawObserved + raw.length } :=
      ⟨given, kept, within, beyond, all⟩
    have copied := copyLoop_spec (blocks decodeChunkBytes raw.length raw) here below
    rw [slices] at copied
    rw [List.flatten_cons, ← List.append_assoc]
    refine Raise.Spec.bind (fun goesOn (state : ReadState σ τ) =>
      if goesOn then Copying setting (source ++ raw) state ∧ state.truncated = false
      else ∀ more,
        Bounded setting false (fun raw => raw) (fun _ => True) (source ++ raw ++ more) state)
      ?_ fun goesOn => Raise.spec_at_each fun after done => Raise.Spec.ite
        (fun goes => ?_) fun stops => ?_
    · refine Raise.Spec.bind _ Raise.Spec.modify_at fun _ => Raise.Spec.bind_get_at ?_
      refine Raise.Spec.ite (fun other => absurd other.1 Bool.false_ne_true) fun _ => ?_
      rw [ReadSetting.passChunk, if_neg Bool.false_ne_true]
      refine Raise.Spec.bind _ copied fun _ => Raise.Spec.bind_get fun between later => ?_
      refine Raise.Spec.ite (fun truncated => ?_) fun still => ?_
      · obtain ⟨_, keeps, _⟩ := id later
        refine Raise.Spec.bind _ (closeResponse_spec keeps.safe) fun _ => Raise.Spec.pure ?_
        rintro state rfl more
        have bounded := @Copying.bounded _ _ _ _ _ later more (.inl truncated)
        exact ⟨bounded.isPrefix, bounded.length, bounded.whole, bounded.flagged, bounded.retained,
          bounded.charged⟩
      · exact Raise.Spec.pure fun state same => same ▸ ⟨later, Bool.eq_false_iff.mpr still⟩
    · rw [if_pos goes] at done
      exact ih done.1 done.2
    · rw [if_neg stops] at done
      exact Raise.Spec.pure fun state same => same ▸ done _

end Copying

/-! ### The whole read -/

/-- What a body in a coding decodes to. -/
def decodedBody (formats : Coding → Format) : Option Coding → Bytes → Bytes
  | none, raw => raw
  | some coding, raw => (formats coding).decoded raw

/-- The raw bytes are a complete stream. Without a coding, all are. -/
def CompleteBody (formats : Coding → Format) : Option Coding → Bytes → Prop
  | none, _ => True
  | some coding, raw => (formats coding).Complete raw

/-- **The body that is read**: its coding, and its chunks. -/
structure UpstreamResponse.Streams (response : UpstreamResponse) (coding : Option Coding)
    (chunks : List Bytes) : Prop where
  unbounded : response.alreadyBounded = none
  isCoding : codingOf ((PyText.strip response.contentEncoding).map PyText.lowerAscii) = some coding
  /-- A stream that is consumed, or has no raw bytes, can only be copied. -/
  isSource : response.isStreamConsumed = false ∧ response.rawChunks = some chunks ∨
    coding = none ∧ (response.isStreamConsumed = true ∨ response.rawChunks = none) ∧
      response.byteChunks = some chunks

/-- **What a limited read returns** for the raw bytes of a body. -/
structure Limited {σ τ : Type} (setting : ReadSetting σ τ) (formats : Coding → Format)
    (coding : Option Coding) (raw : Bytes) (value : LimitedResponseBody)
      (events : List BodyEvent) : Prop where
  isPrefix : value.body <+: decodedBody formats coding raw
  length : value.body.length ≤ setting.limit
  whole : value.truncated = false →
    CompleteBody formats coding raw ∧ value.body = decodedBody formats coding raw
  longer : setting.limit < (decodedBody formats coding raw).length → value.truncated = true
  flagged : value.truncated = true → setting.limit < (decodedBody formats coding raw).length ∨
    coding.isSome = true ∧ setting.limit + encodedOverheadAllowanceBytes < raw.length
  retained : retainedBytes events = value.body.length
  charged : setting.reserveBytes.isSome = true →
    Ahead setting.reservationMultiplier events ∧
      reservedBytes events = setting.reservationMultiplier * value.body.length

section Whole

variable {σ τ : Type} {setting : ReadSetting σ τ} {formats : Coding → Format} {start : Coding → σ}
  {Holds : Coding → σ → Bytes → Bytes → Prop} {seen : ReadState σ τ}

theorem closeAndRaise_spec {α : Type} {post : α → ReadState σ τ → Prop} (fault : ReadFault) :
    Raise.Spec (Failed setting fault) (setting.closeAndRaise fault) post (Failed setting) := by
  refine Raise.spec_at_each fun known failed => ?_
  refine Raise.Spec.bind _ (closeResponse_spec failed.2) fun _ => ?_
  split
  · exact Raise.Spec.throw fun state same => same ▸ ⟨nofun, failed.2⟩
  · exact Raise.Spec.throw fun state same => same ▸ failed

/-- **A body behind the guards** is what its chunk loop gives. -/
theorem readBody_spec {compressed : Bool} {chunks : List Bytes} {done : ReadState σ τ → Prop}
    (loop : Raise.Spec (fun state => state = seen) (setting.chunkLoop compressed chunks)
      (fun _ => done)
      (Failed setting)) :
    Raise.Spec (fun state => state = seen) (setting.readBody compressed chunks)
      (fun value state => done state ∧ value.body = state.body ∧ value.truncated = state.truncated)
      (Failed setting) := by
  refine Raise.Spec.bind _ (Raise.Spec.tryExcept _ loop closeAndRaise_spec) fun _ => ?_
  refine Raise.Spec.bind_get fun known holds => Raise.Spec.pure fun state same => ?_
  subst same
  exact ⟨holds, rfl, rfl⟩

theorem kept_fresh (idle : σ) (outside : τ) :
    Kept setting [] (ReadState.fresh idle outside).body (ReadState.fresh idle outside).events := by
  refine ⟨List.take_nil.symm, rfl, fun _ => ⟨fun before isPrefix => ?_, (Nat.mul_zero _).symm⟩⟩
  rw [List.prefix_nil.mp isPrefix]
  exact Nat.le_refl 0

/-- A bounded body is a limited one. -/
theorem Bounded.limited {coding : Option Coding} {raw : Bytes} {value : LimitedResponseBody}
    (bounded : Bounded setting coding.isSome (decodedBody formats coding)
      (CompleteBody formats coding) raw seen)
    (sameBody : value.body = seen.body) (sameFlag : value.truncated = seen.truncated) :
    Limited setting formats coding raw value seen.events where
  isPrefix := sameBody ▸ bounded.isPrefix
  length := sameBody ▸ bounded.length
  whole below := sameBody ▸ bounded.whole (sameFlag ▸ below)
  longer beyond := by
    rw [sameFlag]
    by_contra below
    have whole := (bounded.whole (Bool.eq_false_iff.mpr below)).2
    have short := bounded.length
    rw [whole] at short
    omega
  flagged truncated := bounded.flagged (sameFlag ▸ truncated)
  retained := sameBody ▸ bounded.retained
  charged callback := by
    have balanced := bounded.charged callback
    rw [sameBody, ← bounded.retained]
    exact ⟨balanced.ahead, balanced.exact⟩

/-- **A copied body** is limited. -/
theorem readBody_identity (chunks : List Bytes) (idle : σ) (outside : τ) :
    Raise.Spec (fun state => state = ReadState.fresh idle outside) (setting.readBody false chunks)
      (fun value state => Limited setting formats none chunks.flatten value state.events)
      (Failed setting) := by
  have copying : Copying setting [] (ReadState.fresh idle outside) :=
    ⟨[], kept_fresh idle outside, List.prefix_rfl, nofun, fun _ => ⟨rfl, Nat.zero_le _⟩⟩
  refine (readBody_spec (chunkLoop_identity chunks copying rfl)).returning ?_
  exact fun value state ⟨bounded, sameBody, sameFlag⟩ =>
    @Bounded.limited _ _ _ formats _ none _ _ bounded sameBody sameFlag

/-- **A decoded body** is limited. -/
theorem readBody_compressed (coding : Coding)
    (inflates : setting.zlib.Inflates (formats coding) (start coding) (Holds coding))
      (chunks : List Bytes)
    (outside : τ) :
    Raise.Spec (fun state => state = ReadState.fresh (start coding) outside)
      (setting.readBody true chunks)
      (fun value state => Limited setting formats (some coding) chunks.flatten value state.events)
      (Failed setting) := by
  have between : Between setting (Holds coding) [] (ReadState.fresh (start coding) outside) := by
    refine ⟨⟨[], [], ⟨inflates.start_holds, List.prefix_rfl, nofun, fun _ => ⟨Nat.zero_le _, ?_⟩⟩,
      kept_fresh _ outside⟩, rfl, inflates.start_unused, rfl⟩
    exact (congrArg (· ++ []) inflates.start_unused).symm
  refine (readBody_spec (chunkLoop_compressed inflates chunks between)).returning ?_
  exact fun value state ⟨bounded, sameBody, sameFlag⟩ =>
    @Bounded.limited _ _ _ formats _ (some coding) _ _ bounded sameBody sameFlag

/-- **A limited read** of a body, from its raw chunks. -/
theorem readLimitedResponseBody_spec {response : UpstreamResponse} {coding : Option Coding}
    {chunks : List Bytes} (positive : 0 < setting.limit)
    (weighted : 0 < setting.reservationMultiplier)
    (inflates : ∀ coding, setting.zlib.Inflates (formats coding) (start coding) (Holds coding))
    (streams : response.Streams coding chunks) (idle : σ) (outside : τ) :
    Raise.Spec (fun state => state = ReadState.fresh idle outside)
      (setting.readLimitedResponseBody start response)
      (fun value state => Limited setting formats coding chunks.flatten value state.events)
      (Failed setting) := by
  have copied := @readBody_identity σ τ setting formats chunks idle outside
  rw [ReadSetting.readLimitedResponseBody, if_neg positive.ne', if_neg weighted.ne',
    streams.unbounded]
  dsimp only
  rw [streams.isCoding]
  dsimp only
  rcases streams.isSource with ⟨unconsumed, isRaw⟩ | ⟨rfl, isCopied, isBytes⟩
  · rw [unconsumed, isRaw, if_neg (by simp)]
    refine Raise.Spec.bind _ Raise.Spec.modify_at fun _ => ?_
    cases coding with
    | none => exact copied
    | some coding => exact readBody_compressed coding (inflates coding) chunks outside
  · rw [if_neg (by simp), isBytes]
    refine Raise.Spec.bind _ Raise.Spec.modify_at fun _ => ?_
    rcases isCopied with consumed | noRaw
    · rw [consumed]
      exact copied
    · rw [noRaw]
      cases response.isStreamConsumed with
      | true => exact copied
      | false => exact copied

/-- **A stream that is not complete** is refused, where neither limit ends the read. -/
theorem Limited.raises {coding : Option Coding} {raw : Bytes} {value : LimitedResponseBody}
    {events : List BodyEvent} (limited : Limited setting formats coding raw value events)
    (incomplete : ¬ CompleteBody formats coding raw)
    (fits : (decodedBody formats coding raw).length ≤ setting.limit) :
    value.truncated = true ∧ setting.limit + encodedOverheadAllowanceBytes < raw.length := by
  have truncated : value.truncated = true := by
    by_contra below
    exact incomplete (limited.whole (Bool.eq_false_iff.mpr below)).1
  refine ⟨truncated, ?_⟩
  rcases limited.flagged truncated with beyond | ⟨_, capped⟩
  · omega
  · exact capped

end Whole

/-! ### The callback -/

/-- What the callback works on follows the bytes reserved through it. -/
def Follows {σ τ : Type} (setting : ReadSetting σ τ) (amount : ℕ → τ → Prop) : Prop :=
  ∀ callback, setting.reserveBytes = some callback → ∀ total size,
    Raise.Spec (amount total) (callback size) (fun _ => amount (total + size))
      (fun _ => amount total)

/-- It has followed them so far. -/
def Followed {σ τ : Type} (amount : ℕ → τ → Prop) (state : ReadState σ τ) : Prop :=
  amount (reservedBytes state.events) state.outside

section Following

variable {σ τ : Type} {setting : ReadSetting σ τ} {amount : ℕ → τ → Prop}

theorem await_follows : Raise.Keeps (Followed amount) setting.await := by
  refine .bind .get fun state => .bind (.modify fun _ followed => followed) fun _ => ?_
  cases setting.interrupts state.awaits with
  | none => exact .pure
  | some fault => exact .throw

theorem closeResponse_follows : Raise.Keeps (Followed amount) setting.closeResponse :=
  .bind await_follows fun _ => .modify fun _ followed => followed

theorem charge_follows (follows : Follows setting amount) (size : ℕ) :
    Raise.Keeps (Followed amount) (setting.charge size) := by
  unfold ReadSetting.charge
  cases isCallback : setting.reserveBytes with
  | none => exact .pure
  | some callback =>
    intro state followed
    have here := follows callback isCallback _ size state.outside followed
    dsimp only
    unfold ReadSetting.reserve
    rcases outcome : callback size state.outside with ⟨fault | done, outside⟩
    all_goals rw [outcome] at here
    · exact here
    · show amount (reservedBytes (state.events ++ [.reserve size])) outside
      rw [reservedBytes_concat]
      exact here

theorem keep_follows (follows : Follows setting amount) (retained : Bytes) :
    Raise.Keeps (Followed amount) (setting.keep retained) := by
  refine .ite .pure (.bind (charge_follows follows _) fun _ => .modify fun state followed => ?_)
  show amount (reservedBytes (state.events ++ [.retain retained.length])) state.outside
  rw [reservedBytes_concat]
  exact followed

theorem retain_follows (follows : Follows setting amount) (decoded : Bytes) :
    Raise.Keeps (Followed amount) (setting.retain decoded) :=
  .bind (.modify fun _ followed => followed) fun _ => .bind .get fun _ =>
    .bind (keep_follows follows _) fun _ =>
      .ite (.bind (.modify fun _ followed => followed) fun _ => .pure) .pure

theorem retainAny_follows (follows : Follows setting amount) (decoded : Bytes) :
    Raise.Keeps (Followed amount) (setting.retainAny decoded) :=
  .ite .pure (retain_follows follows decoded)

theorem onZlib_follows (call : σ → Except Unit (Bytes × σ)) :
    Raise.Keeps (Followed amount) (setting.onZlib call) := by
  refine .bind await_follows fun _ => .bind .get fun state => ?_
  rcases call state.decompressor with _ | ⟨output, after⟩
  · exact .throw
  · exact .bind (.modify fun _ followed => followed) fun _ => .pure

theorem decodeLoop_follows (follows : Follows setting amount) (fuel : ℕ) (pending : Bytes) :
    Raise.Keeps (Followed amount) (setting.decodeLoop fuel pending) := by
  induction fuel generalizing pending with
  | zero => exact .throw
  | succ fuel ih =>
    refine .bind .get fun _ => .ite .pure ?_
    refine .bind (onZlib_follows _) fun decoded => .bind .get fun _ => ?_
    exact .bind (retainAny_follows follows decoded) fun _ => .ite .pure (.ite .throw (ih _))

theorem sliceLoop_follows (follows : Follows setting amount) (slices : List Bytes) :
    Raise.Keeps (Followed amount) (setting.sliceLoop slices) := by
  induction slices with
  | nil => exact .pure
  | cons slice rest ih =>
    exact .bind (decodeLoop_follows follows _ slice) fun _ => .bind .get fun _ => .ite .pure ih

theorem copyLoop_follows (follows : Follows setting amount) (slices : List Bytes) :
    Raise.Keeps (Followed amount) (setting.copyLoop slices) := by
  induction slices with
  | nil => exact .pure
  | cons slice rest ih => exact .bind (retain_follows follows slice) fun _ => .ite ih .pure

theorem flushLoop_follows (follows : Follows setting amount) (fuel : ℕ) :
    Raise.Keeps (Followed amount) (setting.flushLoop fuel) := by
  induction fuel with
  | zero => exact .throw
  | succ fuel ih =>
    refine .bind .get fun _ => .bind (onZlib_follows _) fun tail => .ite .pure ?_
    exact .bind (retain_follows follows tail) fun _ => .ite ih closeResponse_follows

theorem passChunk_follows (follows : Follows setting amount) (compressed : Bool) (raw : Bytes) :
    Raise.Keeps (Followed amount) (setting.passChunk compressed raw) :=
  .ite (.bind (sliceLoop_follows follows _) fun _ => .bind .get fun _ => .ite .throw .pure)
    (copyLoop_follows follows _)

theorem readChunk_follows (follows : Follows setting amount) (compressed : Bool) (raw : Bytes) :
    Raise.Keeps (Followed amount) (setting.readChunk compressed raw) := by
  refine .bind (.modify fun _ followed => followed) fun _ => .bind .get fun _ => .ite ?_ ?_
  · exact .bind (.modify fun _ followed => followed) fun _ =>
      .bind closeResponse_follows fun _ => .pure
  · refine .bind (passChunk_follows follows compressed raw) fun _ => .bind .get fun _ => ?_
    exact .ite (.bind closeResponse_follows fun _ => .pure) .pure

theorem chunkLoop_follows (follows : Follows setting amount) (compressed : Bool)
    (chunks : List Bytes) :
    Raise.Keeps (Followed amount) (setting.chunkLoop compressed chunks) := by
  induction chunks with
  | nil =>
    refine .bind await_follows fun _ => .ite (.bind .get fun _ => ?_) .pure
    exact .ite .throw (flushLoop_follows follows _)
  | cons raw rest ih =>
    exact .bind await_follows fun _ => .bind (readChunk_follows follows compressed raw) fun _ =>
      .ite ih .pure

theorem closeAndRaise_follows {α : Type} (fault : ReadFault) :
    Raise.Keeps (Followed amount) (setting.closeAndRaise fault : setting.Run α) := by
  refine .bind closeResponse_follows fun _ => ?_
  split
  · exact .throw
  · exact .throw

theorem readBody_follows (follows : Follows setting amount) (compressed : Bool)
    (chunks : List Bytes) :
    Raise.Keeps (Followed amount) (setting.readBody compressed chunks) :=
  .bind (.tryExcept (chunkLoop_follows follows compressed chunks) closeAndRaise_follows) fun _ =>
    .bind .get fun _ => .pure

theorem refuseEncoding_follows {α : Type} (encoding : PyText) :
    Raise.Keeps (Followed amount) (setting.refuseEncoding encoding : setting.Run α) :=
  .bind closeResponse_follows fun _ => .throw

/-- **The callback has followed** the events of a read, whether it returns or raises. -/
theorem readLimitedResponseBody_follows (follows : Follows setting amount) (start : Coding → σ)
    (response : UpstreamResponse) :
    Raise.Keeps (Followed amount) (setting.readLimitedResponseBody start response) := by
  refine .ite .throw (.ite .throw ?_)
  cases response.alreadyBounded with
  | some content => exact .pure
  | none =>
    dsimp only
    cases codingOf ((PyText.strip response.contentEncoding).map PyText.lowerAscii) with
    | none => exact refuseEncoding_follows _
    | some coding =>
      refine .ite (refuseEncoding_follows _) ?_
      refine .bind (.modify fun _ followed => followed) fun _ => ?_
      split
      · exact readBody_follows follows _ _
      · refine .ite (refuseEncoding_follows _) ?_
        split
        · exact readBody_follows follows _ _
        · exact .throw

end Following

end UniApi.Upstream
