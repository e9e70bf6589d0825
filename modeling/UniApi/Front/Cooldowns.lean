/-
**The cooldowns of the front: what a failure writes, and what a selection reads.**

One table has the instants until which a route of a provider and a model is cooling. The circuit of the
route writes into it, and so does the ordinary cooldown of the channel; another table has the instants of
the keys. Every write replaces what is there.

* `deadline_step`: a step writes at most one instant, the one that `written` reads off the failure;
* `exists_write`: what is recorded was written by an earlier step of the run;
* `circuit_stays_open_iff`: no instant is shortened if and only if the periods and the order of the failures
  allow it;
* `cooldown_closes_circuit`: a failure whose own cooldown ends the circuit that it has just opened.
-/

import UniApi.Front.Circuit
import UniApi.Front.Numbers
import UniApi.Front.ProviderStatus
import UniApi.Upstream.ResponsesErrors

namespace UniApi.Front

open UniApi.Lib UniApi.Upstream
open UniApi.Routing (CircuitSettings)

/-! ### The store -/

/-- What the store reads of a provider. -/
structure CooledProvider where
  name : Bytes
  apiKeys : List Bytes
  engine : Bytes
  preferences : JsonMap

/-- A provider and a model of it. -/
abbrev Route := Bytes × Bytes

/-- The tables of `NativeConfigStore`, with instants in nanoseconds, and the cursor of each provider. -/
structure CooldownStore where
  routeFailures : Route → List ℕ
  channelCooldowns : Route → Option ℕ
  keyCooldowns : Bytes × Bytes → Option ℕ
  cursors : Bytes → ℕ

def CooldownStore.start : CooldownStore := ⟨fun _ => [], fun _ => none, fun _ => none, fun _ => 0⟩

/-- `FailedRoute`. -/
structure FailedRoute where
  provider : CooledProvider
  key : Bytes
  originalModel : Bytes
  hasAlternative : Bool
  status : ℕ
  detail : Bytes
  forceQuotaCooldown : Bool

def FailedRoute.route (failure : FailedRoute) : Route := (failure.provider.name, failure.originalModel)

/-! ### How long a failure cools -/

/-- `Value::as_f64`, by the double of a number that is no integer; a negative number counts as zero, as it
does where it is read. -/
def asF64 (floats : Bytes → Double) : Value → Option Double
  | .number (.posInt value) => some (.ofRatio value 1)
  | .number (.negInt _) => some (.finite 0 0)
  | .number (.float text) => some (floats text)
  | _ => none

section Durations

variable (floats : Bytes → Double)

/-- `preference_f64`. -/
def preferenceF64 (preferences : JsonMap) (key : String) : Option Double :=
  (preferences.get (Utf8.lit key)).bind (asF64 floats)

/-- What is behind the first occurrence of a text. -/
def splitBehind (mark : List CodePoint) : List CodePoint → Option (List CodePoint)
  | [] => if mark.isEmpty then some [] else none
  | point :: rest =>
    if mark.isPrefixOf (point :: rest) then some ((point :: rest).drop mark.length)
    else splitBehind mark rest

/-- `retry_after_seconds`. -/
def retryAfterSeconds (detail : Bytes) : Option Double := do
  let behind ← splitBehind (Utf8.points "try again in") (pyText (asciiLowered detail))
  let tail := behind.dropWhile isWhitespace
  let isNumber := fun point => isAsciiDigit point || point == 46
  let number := tail.takeWhile isNumber
  if number.isEmpty then none
  else
    let value ← parseF64 number
    let unit := (tail.dropWhile isNumber).dropWhile isWhitespace
    if (Utf8.points "ms").isPrefixOf unit || (Utf8.points "millisecond").isPrefixOf unit then
      some (value.divNat 1000).ceil
    else if (Utf8.points "m").isPrefixOf unit then some (value.mulNat 60).ceil
    else some value.ceil

/-- How long the channel of a provider cools. -/
def channelSeconds (globalPreferences : Option JsonMap) (provider : CooledProvider) : Double :=
  ((preferenceF64 floats provider.preferences "cooldown_period").or
    (globalPreferences.bind (preferenceF64 floats · "cooldown_period"))).getD (.finite 0 0)

/-- The texts of a failure that used a quota up. -/
def quotaMarkers : List String := ["insufficient_quota", "billing_hard_limit_reached"]

/-- The texts of a failure that met a rate limit. -/
def rateMarkers : List String :=
  ["rate_limit_exceeded", "rate limit reached", "too many requests", "tokens per min",
    "requests per min", "tokens per day", "requests per day", "please try again in"]

/-- A failure that used a quota up. -/
def isQuotaFailure (failure : FailedRoute) : Bool :=
  failure.forceQuotaCooldown ||
    (401 ≤ failure.status && failure.status ≤ 403 &&
      eqIgnoreAsciiCase failure.provider.engine (Utf8.lit "codex")) ||
    mentions quotaMarkers (asciiLowered failure.detail)

/-- A period that is configured and positive, or the default. -/
def positiveOr (configured : Option Double) (default : ℕ) : Double :=
  (configured.filter Double.isPositive).getD (.ofRatio default 1)

/-- How long the key of a failure cools. -/
def keySeconds (failure : FailedRoute) : Double :=
  let preferences := failure.provider.preferences
  if isQuotaFailure failure then
    positiveOr (preferenceF64 floats preferences "api_key_quota_cooldown_period") 21600
  else if failure.status = 429 ∧ mentions rateMarkers (asciiLowered failure.detail) then
    (positiveOr (preferenceF64 floats preferences "api_key_rate_limit_cooldown_period") 1800).larger
      ((retryAfterSeconds failure.detail).getD (.finite 0 0))
  else (preferenceF64 floats preferences "api_key_cooldown_period").getD (.finite 0 0)

variable (globalPreferences : Option JsonMap)

/-- The channel of a failure cools: it has an alternative, and a period. -/
def coolsChannel (failure : FailedRoute) : Bool :=
  failure.hasAlternative && (channelSeconds floats globalPreferences failure.provider).isPositive

/-- What is added to the clock for the channel of a failure. -/
def channelPeriod (failure : FailedRoute) : Option ℕ :=
  if coolsChannel floats globalPreferences failure then
    (channelSeconds floats globalPreferences failure.provider).nanoseconds
  else none

/-- What is added to the clock for the key of a failure, where the call gets that far: a period of the
channel that no duration holds ends it. -/
def keyPeriod (failure : FailedRoute) : Option ℕ :=
  if coolsChannel floats globalPreferences failure ∧ channelPeriod floats globalPreferences failure = none then
    none
  else if failure.provider.apiKeys.length ≤ 1 then none
  else if (keySeconds floats failure).isPositive then (keySeconds floats failure).nanoseconds
  else none

end Durations

/-! ### The sections of the calls -/

/-- What is done to the tables without a pause: the three sections of `cool_failed_route`, each with its own
reading of the clock, `reset_route_failure` and `select_provider_key`. -/
inductive CooldownEvent where
  | circuit (failure : FailedRoute)
  | channel (failure : FailedRoute)
  | key (failure : FailedRoute)
  | reset (provider : CooledProvider) (originalModel : Bytes)
  | select (provider : CooledProvider) (originalModel : Bytes)

/-- `ProviderKeySelection`. -/
inductive ProviderKeySelection where
  | selected (key : Bytes)
  | channelCooling
  | allKeysCooling
  | noProviderKey
  deriving DecidableEq

section Sections

variable (settings : CircuitSettings)

/-- The failure of a route in its history, which opens its circuit when there are enough of them. -/
def circuitSection (store : CooldownStore) (now : ℕ) (route : Route) (status : ℕ) : CooldownStore :=
  let cooled := coolFailedRoute settings ⟨store.routeFailures route, store.channelCooldowns route⟩
    now status
  { store with
    routeFailures := Function.update store.routeFailures route cooled.history
    channelCooldowns := Function.update store.channelCooldowns route cooled.coolingUntil }

/-- The keys of a provider from its cursor on, as many as it has. -/
def selectKey (store : CooldownStore) (now : ℕ) (provider : CooledProvider) :
    ℕ → ProviderKeySelection × CooldownStore
  | 0 => (.allKeysCooling, store)
  | left + 1 =>
    let key := provider.apiKeys.getD (store.cursors provider.name % provider.apiKeys.length) []
    let moved := { store with
      cursors := Function.update store.cursors provider.name (store.cursors provider.name + 1) }
    if (store.keyCooldowns (provider.name, key)).all (· ≤ now) then (.selected key, moved)
    else selectKey moved now provider left

/-- `select_provider_key`. -/
def selectProviderKey (store : CooldownStore) (now : ℕ) (provider : CooledProvider)
    (originalModel : Bytes) : ProviderKeySelection × CooldownStore :=
  if provider.apiKeys.isEmpty then (.noProviderKey, store)
  else if (store.channelCooldowns (provider.name, originalModel)).any (now < ·) then
    (.channelCooling, store)
  else selectKey store now provider provider.apiKeys.length

variable (floats : Bytes → Double) (globalPreferences : Option JsonMap)

/-- One event at its reading of the clock. -/
def cooldownStep (store : CooldownStore) (now : ℕ) : CooldownEvent → CooldownStore
  | .circuit failure => circuitSection settings store now failure.route failure.status
  | .channel failure =>
    match channelPeriod floats globalPreferences failure with
    | some period =>
      { store with
        channelCooldowns := Function.update store.channelCooldowns failure.route (some (now + period)) }
    | none => store
  | .key failure =>
    match keyPeriod floats globalPreferences failure with
    | some period =>
      { store with
        keyCooldowns :=
          Function.update store.keyCooldowns (failure.provider.name, failure.key) (some (now + period)) }
    | none => store
  | .reset provider originalModel =>
    { store with routeFailures := Function.update store.routeFailures (provider.name, originalModel) [] }
  | .select provider originalModel => (selectProviderKey store now provider originalModel).2

/-- A run from empty tables. -/
def cooldownRun (events : List (ℕ × CooldownEvent)) : CooldownStore :=
  events.foldl (fun store event => cooldownStep settings floats globalPreferences store event.1 event.2) .start

/-- The sections of `cool_failed_route`, at their readings of the clock. -/
def coolFailedRouteEvents (failure : FailedRoute) (first second third : ℕ) : List (ℕ × CooldownEvent) :=
  [(first, .circuit failure), (second, .channel failure), (third, .key failure)]

end Sections

/-! ### Instants that only become later -/

/-- What has a recorded instant. -/
inductive Cooled where
  | route (route : Route)
  | key (key : Bytes × Bytes)
  deriving DecidableEq

/-- The instant until which something cools. -/
def CooldownStore.deadline (store : CooldownStore) : Cooled → Option ℕ
  | .route route => store.channelCooldowns route
  | .key key => store.keyCooldowns key

/-- **No recorded instant becomes earlier.** -/
def Keeps (before after : CooldownStore) : Prop :=
  ∀ cooled, ∀ until_ ∈ before.deadline cooled, ∃ later ∈ after.deadline cooled, until_ ≤ later

theorem Keeps.trans {first second third : CooldownStore} (here : Keeps first second)
    (later : Keeps second third) : Keeps first third := by
  intro cooled until_ found
  obtain ⟨middle, atMiddle, notBefore⟩ := here cooled until_ found
  obtain ⟨last, atLast, notBefore'⟩ := later cooled middle atMiddle
  exact ⟨last, atLast, notBefore.trans notBefore'⟩

section Runs

variable (settings : CircuitSettings)

/-- The failure opens the circuit of its route: with a status that counts, it fills the history. -/
def Opens (store : CooldownStore) (now : ℕ) (failure : FailedRoute) : Prop :=
  (failure.status = 403 ∨ failure.status = 404) ∧
    settings.threshold ≤
      (kept settings ⟨store.routeFailures failure.route, none⟩ now ++ [now]).length

instance (store : CooldownStore) (now : ℕ) (failure : FailedRoute) :
    Decidable (Opens settings store now failure) := inferInstanceAs (Decidable (_ ∧ _))

variable (floats : Bytes → Double) (globalPreferences : Option JsonMap)

/-- **What a step writes, and for how long**, by the status and the history of a failure, by its preferences
and by whether it has an alternative. -/
def written (store : CooldownStore) (now : ℕ) : CooldownEvent → Option (Cooled × ℕ)
  | .circuit failure =>
    if Opens settings store now failure then some (.route failure.route, settings.openPeriod) else none
  | .channel failure =>
    (channelPeriod floats globalPreferences failure).map fun period => (.route failure.route, period)
  | .key failure =>
    (keyPeriod floats globalPreferences failure).map fun period =>
      (.key (failure.provider.name, failure.key), period)
  | .reset _ _ | .select _ _ => none

theorem selectKey_deadline (store : CooldownStore) (now : ℕ) (provider : CooledProvider) (left : ℕ) :
    (selectKey store now provider left).2.deadline = store.deadline := by
  induction left generalizing store with
  | zero => rfl
  | succ left ih =>
    rw [selectKey]
    split
    · rfl
    · exact ih _

theorem selectProviderKey_deadline (store : CooldownStore) (now : ℕ) (provider : CooledProvider)
    (originalModel : Bytes) :
    (selectProviderKey store now provider originalModel).2.deadline = store.deadline := by
  unfold selectProviderKey
  split
  · rfl
  · split
    · rfl
    · exact selectKey_deadline _ _ _ _

theorem deadline_channels (store : CooldownStore) (failures : Route → List ℕ) (route : Route)
    (until_ : Option ℕ) :
    CooldownStore.deadline { store with
      routeFailures := failures
      channelCooldowns := Function.update store.channelCooldowns route until_ } =
        Function.update store.deadline (.route route) until_ := by
  funext cooled
  cases cooled with
  | key key => exact (Function.update_of_ne (by simp) _ _).symm
  | route other =>
    show Function.update _ _ _ _ = _
    by_cases same : other = route
    · rw [same, Function.update_self, Function.update_self]
    · rw [Function.update_of_ne same, Function.update_of_ne (by simpa using same)]
      rfl

theorem deadline_keys (store : CooldownStore) (key : Bytes × Bytes) (until_ : Option ℕ) :
    CooldownStore.deadline { store with keyCooldowns := Function.update store.keyCooldowns key until_ } =
      Function.update store.deadline (.key key) until_ := by
  funext cooled
  cases cooled with
  | route route => exact (Function.update_of_ne (by simp) _ _).symm
  | key other =>
    show Function.update _ _ _ _ = _
    by_cases same : other = key
    · rw [same, Function.update_self, Function.update_self]
    · rw [Function.update_of_ne same, Function.update_of_ne (by simpa using same)]
      rfl

/-- The instants behind a step. -/
def recorded (store : CooldownStore) (now : ℕ) (written : Option (Cooled × ℕ)) : Cooled → Option ℕ :=
  written.elim store.deadline fun write => Function.update store.deadline write.1 (some (now + write.2))

/-- **A step writes what is read off its event**, over whatever is there. -/
theorem deadline_step (store : CooldownStore) (now : ℕ) (event : CooldownEvent) :
    (cooldownStep settings floats globalPreferences store now event).deadline =
      recorded store now (written settings floats globalPreferences store now event) := by
  cases event with
  | circuit failure =>
    have unchanged : store.deadline =
        Function.update store.deadline (.route failure.route) (store.channelCooldowns failure.route) :=
      (Function.update_eq_self _ _).symm
    have isKept : kept settings ⟨store.routeFailures failure.route, store.channelCooldowns failure.route⟩ now =
        kept settings ⟨store.routeFailures failure.route, none⟩ now := rfl
    refine (deadline_channels store _ failure.route _).trans ?_
    unfold written coolFailedRoute
    dsimp only
    rw [isKept]
    by_cases failed : failure.status = 403 ∨ failure.status = 404
    · by_cases enough : settings.threshold ≤
          (kept settings ⟨store.routeFailures failure.route, none⟩ now ++ [now]).length
      · rw [if_pos failed, if_pos enough, if_pos (show Opens settings store now failure from ⟨failed, enough⟩)]
        rfl
      · rw [if_pos failed, if_neg enough, if_neg fun opens : Opens settings store now failure => enough opens.2]
        exact unchanged.symm
    · rw [if_neg failed, if_neg fun opens : Opens settings store now failure => failed opens.1]
      exact unchanged.symm
  | channel failure =>
    simp only [cooldownStep, written]
    cases channelPeriod floats globalPreferences failure with
    | none => rfl
    | some period => exact deadline_channels store store.routeFailures _ _
  | key failure =>
    simp only [cooldownStep, written]
    cases keyPeriod floats globalPreferences failure with
    | none => rfl
    | some period => exact deadline_keys store _ _
  | reset provider originalModel => rfl
  | select provider originalModel => exact selectProviderKey_deadline _ _ _ _

/-- **The order of a run**: of any two writes for one route or one key, the later one ends no earlier. -/
def Ordered (events : List (ℕ × CooldownEvent)) : Prop :=
  ∀ before first event between second event' after,
    events = before ++ (first, event) :: (between ++ (second, event') :: after) →
    ∀ cooled period period',
      written settings floats globalPreferences (cooldownRun settings floats globalPreferences before)
          first event = some (cooled, period) →
      written settings floats globalPreferences
          (cooldownRun settings floats globalPreferences (before ++ (first, event) :: between))
          second event' = some (cooled, period') →
      first + period ≤ second + period'

variable {settings floats globalPreferences}

theorem cooldownRun_concat (events : List (ℕ × CooldownEvent)) (now : ℕ) (event : CooldownEvent) :
    cooldownRun settings floats globalPreferences (events ++ [(now, event)]) =
      cooldownStep settings floats globalPreferences (cooldownRun settings floats globalPreferences events)
        now event :=
  List.foldl_concat ..

/-- **What is recorded was written by an earlier step.** -/
theorem exists_write {events : List (ℕ × CooldownEvent)} {cooled : Cooled} {until_ : ℕ}
    (found : until_ ∈ (cooldownRun settings floats globalPreferences events).deadline cooled) :
    ∃ before now event after period, events = before ++ (now, event) :: after ∧ until_ = now + period ∧
      written settings floats globalPreferences (cooldownRun settings floats globalPreferences before)
        now event = some (cooled, period) := by
  induction events using List.reverseRecOn with
  | nil =>
    have none_ : CooldownStore.start.deadline cooled = none := by cases cooled <;> rfl
    rw [show cooldownRun settings floats globalPreferences [] = .start from rfl, none_] at found
    cases found
  | append_singleton events last ih =>
    obtain ⟨now, event⟩ := last
    rw [cooldownRun_concat, deadline_step] at found
    have here : (∃ period, until_ = now + period ∧ written settings floats globalPreferences
          (cooldownRun settings floats globalPreferences events) now event = some (cooled, period)) ∨
        until_ ∈ (cooldownRun settings floats globalPreferences events).deadline cooled := by
      revert found
      cases written settings floats globalPreferences
          (cooldownRun settings floats globalPreferences events) now event with
      | none => exact .inr
      | some write =>
        intro found
        by_cases same : cooled = write.1
        · subst same
          have isUntil : now + write.2 = until_ := by simpa [recorded] using found
          exact .inl ⟨write.2, isUntil.symm, rfl⟩
        · exact .inr (by simpa [recorded, Function.update_of_ne same] using found)
    rcases here with ⟨period, isUntil, isWritten⟩ | earlier
    · exact ⟨events, now, event, [], period, rfl, isUntil, isWritten⟩
    · obtain ⟨before, first, event', after, period, isEvents, isUntil, isWritten⟩ := ih earlier
      exact ⟨before, first, event', after ++ [(now, event)], period, by rw [isEvents]; simp, isUntil, isWritten⟩

/-- A step keeps the recorded instants if and only if what it writes is not before what it replaces. -/
theorem keeps_step_iff (store : CooldownStore) (now : ℕ) (event : CooldownEvent) :
    Keeps store (cooldownStep settings floats globalPreferences store now event) ↔
      ∀ cooled period, written settings floats globalPreferences store now event = some (cooled, period) →
        ∀ until_ ∈ store.deadline cooled, until_ ≤ now + period := by
  rw [Keeps, deadline_step]
  cases written settings floats globalPreferences store now event with
  | none => exact iff_of_true (fun _ until_ found => ⟨until_, found, le_rfl⟩) nofun
  | some write =>
    constructor
    · rintro keeps cooled period ⟨⟩ until_ found
      obtain ⟨later, isLater, notBefore⟩ := keeps cooled until_ found
      have isWritten : now + period = later := by simpa [recorded] using isLater
      exact isWritten ▸ notBefore
    · intro notBefore cooled until_ found
      by_cases same : cooled = write.1
      · subst same
        exact ⟨now + write.2, by simp [recorded], notBefore write.1 write.2 rfl until_ found⟩
      · exact ⟨until_, by simpa [recorded, Function.update_of_ne same] using found, le_rfl⟩

variable (settings floats globalPreferences) in
/-- No step of a run makes a recorded instant earlier. -/
def KeepsThroughout (events : List (ℕ × CooldownEvent)) : Prop :=
  ∀ before now event after, events = before ++ (now, event) :: after →
    Keeps (cooldownRun settings floats globalPreferences before)
      (cooldownRun settings floats globalPreferences (before ++ [(now, event)]))

theorem KeepsThroughout.run {events before after : List (ℕ × CooldownEvent)}
    (keeps : KeepsThroughout settings floats globalPreferences events) (split : before ++ after <+: events) :
    Keeps (cooldownRun settings floats globalPreferences before)
      (cooldownRun settings floats globalPreferences (before ++ after)) := by
  induction after generalizing before with
  | nil =>
    rw [List.append_nil]
    exact fun _ until_ found => ⟨until_, found, le_rfl⟩
  | cons event after ih =>
    obtain ⟨rest, isEvents⟩ := split
    rw [List.append_cons]
    refine (keeps before event.1 event.2 (after ++ rest) (by rw [← isEvents]; simp)).trans (ih ?_)
    exact ⟨rest, by rw [← isEvents]; simp⟩

/-- What a step of a run has written is recorded from then on, or something later is. -/
theorem KeepsThroughout.written {events before between after : List (ℕ × CooldownEvent)}
    (keeps : KeepsThroughout settings floats globalPreferences events) {now : ℕ} {event : CooldownEvent}
    (split : events = before ++ (now, event) :: (between ++ after)) {cooled : Cooled} {period : ℕ}
    (isWritten : written settings floats globalPreferences
      (cooldownRun settings floats globalPreferences before) now event = some (cooled, period)) :
    ∃ later ∈ (cooldownRun settings floats globalPreferences
      (before ++ (now, event) :: between)).deadline cooled, now + period ≤ later := by
  have along := @KeepsThroughout.run _ _ _ _ (before ++ [(now, event)]) between keeps
    ⟨after, by rw [split]; simp⟩
  rw [← List.append_cons] at along
  refine along cooled (now + period) ?_
  rw [cooldownRun_concat, deadline_step, recorded, isWritten]
  simp

/-- **An opened circuit stays open, and no instant is shortened**, in a run if and only if of any two writes
for one route or key the later one ends no earlier. The sections of any number of calls may come in any
order, and each has its own reading of the clock. -/
theorem circuit_stays_open_iff (settings : CircuitSettings) (floats : Bytes → Double)
    (globalPreferences : Option JsonMap) (events : List (ℕ × CooldownEvent)) :
    (KeepsThroughout settings floats globalPreferences events ∧
      ∀ before opened failure after, events = before ++ (opened, .circuit failure) :: after →
        Opens settings (cooldownRun settings floats globalPreferences before) opened failure →
        failure.provider.apiKeys ≠ [] → ∀ now < opened + settings.openPeriod,
          (selectProviderKey (cooldownRun settings floats globalPreferences events) now failure.provider
            failure.originalModel).1 = .channelCooling) ↔
      Ordered settings floats globalPreferences events := by
  constructor
  · rintro ⟨keeps, -⟩ before first event between second event' after split cooled period period' isFirst
      isSecond
    obtain ⟨later, isLater, notBefore⟩ := keeps.written split isFirst
    have step := keeps (before ++ (first, event) :: between) second event' after (by rw [split]; simp)
    rw [cooldownRun_concat, keeps_step_iff] at step
    exact notBefore.trans (step cooled period' isSecond later isLater)
  · intro ordered
    have keeps : KeepsThroughout settings floats globalPreferences events := by
      intro before now event after split
      rw [cooldownRun_concat, keeps_step_iff]
      intro cooled period isWritten until_ found
      obtain ⟨start, first, event', between, period', rfl, rfl, isFirst⟩ := exists_write found
      exact ordered start first event' between now event after (by rw [split]; simp) cooled period' period
        isFirst isWritten
    refine ⟨keeps, fun before opened failure after split opens hasKeys now early => ?_⟩
    obtain ⟨later, isLater, notBefore⟩ := @KeepsThroughout.written _ _ _ _ before after [] keeps opened
      (.circuit failure) (by rw [split, List.append_nil]) (.route failure.route) settings.openPeriod (if_pos opens)
    rw [← split] at isLater
    have cools : (cooldownRun settings floats globalPreferences events).channelCooldowns
        (failure.provider.name, failure.originalModel) = some later := isLater
    unfold selectProviderKey
    rw [if_neg fun empty => hasKeys (List.isEmpty_iff.mp empty), cools, if_pos]
    exact decide_eq_true (early.trans_le notBefore)

end Runs

/-! ### A cooldown that ends a circuit -/

theorem three_failures_pos : 0 < 3 := by decide

/-- Three failures in two minutes open a route for five minutes. -/
def defaultCircuit : CircuitSettings where
  threshold := 3
  window := 120000000000
  openPeriod := 300000000000
  threshold_pos := three_failures_pos
  window_pos := by decide
  openPeriod_pos := by decide

/-- A provider with two keys whose channel cools for five seconds. -/
def fiveSeconds : CooledProvider where
  name := []
  apiKeys := [[1], [2]]
  engine := []
  preferences := [(Utf8.lit "cooldown_period", .number (.posInt 5))]

/-- A failure of a model that it does not have, where there is an alternative. -/
def notFound : FailedRoute where
  provider := fiveSeconds
  key := [1]
  originalModel := []
  hasAlternative := true
  status := 404
  detail := []
  forceQuotaCooldown := false

theorem notFound_periods (floats : Bytes → Double) :
    channelPeriod floats none notFound = some 5000000000 ∧ keyPeriod floats none notFound = none := by
  have seconds : channelSeconds floats none notFound.provider = .ofRatio 5 1 := by
    have found : fiveSeconds.preferences.get (Utf8.lit "cooldown_period") =
        some (.number (.posInt 5)) := List.lookup_cons_self
    unfold channelSeconds preferenceF64
    rw [show notFound.provider.preferences.get _ = _ from found]
    rfl
  have keys : keySeconds floats notFound = .finite 0 0 := by
    have noQuota : isQuotaFailure notFound = false := by decide
    have unset : notFound.provider.preferences.get (Utf8.lit "api_key_cooldown_period") = none := by
      have others : (Utf8.lit "api_key_cooldown_period" == Utf8.lit "cooldown_period") = false := by
        decide
      show List.lookup _ [(Utf8.lit "cooldown_period", Value.number (.posInt 5))] = none
      rw [List.lookup_cons, others]
      rfl
    unfold keySeconds preferenceF64
    dsimp only
    rw [noQuota, if_neg Bool.false_ne_true, if_neg fun limited => absurd limited.1 (by decide), unset]
    rfl
  have nanoseconds : (Double.ofRatio 5 1).nanoseconds = some 5000000000 := by decide
  have channel : channelPeriod floats none notFound = some 5000000000 := by
    have cools : coolsChannel floats none notFound = true := by
      rw [coolsChannel, seconds]
      decide
    rw [channelPeriod, if_pos cools, seconds, nanoseconds]
  refine ⟨channel, ?_⟩
  rw [keyPeriod, channel, if_neg (by simp), if_neg (by decide), keys]
  rfl

/-- **The cooldown of the channel closes the circuit that the same call opened**: after three failures at
once a key is selected six seconds later. -/
theorem cooldown_closes_circuit :
    let call := coolFailedRouteEvents notFound 0 0 0
    let run := cooldownRun defaultCircuit (fun _ => .infinite) none
    Opens defaultCircuit (run (call ++ call)) 0 notFound ∧
      6000000000 < 0 + defaultCircuit.openPeriod ∧
      (selectProviderKey (run (call ++ call ++ call)) 6000000000 fiveSeconds []).1 = .selected [1] := by
  intro call run
  have closed : ∀ events, run (events ++ call) =
      { circuitSection defaultCircuit (run events) 0 notFound.route 404 with
        channelCooldowns := Function.update
          (circuitSection defaultCircuit (run events) 0 notFound.route 404).channelCooldowns notFound.route
          (some 5000000000) } := by
    intro events
    unfold run call cooldownRun
    rw [List.foldl_append]
    simp only [coolFailedRouteEvents, List.foldl_cons, List.foldl_nil, cooldownStep, notFound_periods]
    rfl
  rw [closed, closed, show run call = _ from closed []]
  exact ⟨⟨.inr rfl, by decide⟩, by decide, by decide⟩

end UniApi.Front
