/-
**The idempotency coordinator of the Rust front.**

One table of entries behind one lock. A claim finds an entry or becomes its owner; the owner stores its
response, marks the entry as not replayable, or removes it. Every method is a sequence of critical
sections, and a section is one step: `System.step` runs the sections of any number of clients in any
order, with any clock readings. A waiting claim that wakes up is another claim.

* `Shrunk`: expiry and eviction only remove entries, and keep the account of the stored bytes;
* `Sound`: the invariant, `step_sound` and `run_sound`;
* `coordinator_sound`: accounts, limits, the phases of an entry, and what cannot happen to an owner.
-/

import Mathlib.Data.List.MinMax
import Mathlib.Data.List.Perm.Basic
import UniApi.Lib.Tables
import UniApi.Lib.Utf8

namespace UniApi.Front.Idempotency

open UniApi.Lib UniApi.Lib.Table

/-! ### Responses -/

/-- `HeaderMap`. -/
abbrev Headers := List (String × String)

/-- `HeaderMap::remove`. -/
def Headers.remove (name : String) (headers : Headers) : Headers :=
  List.filter (fun header => header.1 != name) headers

/-- `HeaderMap::insert`. -/
def Headers.insert (name value : String) (headers : Headers) : Headers :=
  Headers.remove name headers ++ [(name, value)]

/-- `STATUS_HEADER`. -/
def statusHeader : String := "x-uni-api-idempotency-status"

structure CachedResponse where
  status : Nat
  headers : Headers
  chunks : List Bytes
  bytes : Nat
  deriving DecidableEq

/-- What a claim answers a client with: a replay, or `error_response`. -/
inductive Response where
  | replayed (status : Nat) (headers : Headers) (chunks : List Bytes)
  | error (status : Nat) (detail idempotencyStatus : String) (retryAfter : Bool)
  deriving DecidableEq

/-- `replay_response`. -/
def replayResponse (response : CachedResponse) : Response :=
  .replayed response.status (Headers.insert statusHeader "replayed" response.headers) response.chunks

/-- The answer to another request under the same key. -/
def conflict : Response :=
  .error 409 "Idempotency-Key was already used for a different request" "conflict" false

/-- The answer when the response cannot be replayed. -/
def executedNonreplayable : Response :=
  .error 409 "the original request executed, but its response is no longer replayable"
    "executed-nonreplayable" false

/-- The answer when no entry can be evicted. -/
def capacityExhausted : Response :=
  .error 503 "idempotency coordinator capacity exhausted" "capacity-exhausted" true

/-! ### Entries -/

structure Entry where
  requestHash : String
  ownerToken : Option Nat
  response : Option CachedResponse
  nonreplayableReason : Option String
  completedAt : Option Nat
  expiresAt : Option Nat
  deriving DecidableEq

/-- The bytes that an entry stores. -/
def Entry.bytes (entry : Entry) : Nat := (entry.response.map CachedResponse.bytes).getD 0

/-- `expires_at.is_some_and(|deadline| deadline <= now)`. -/
def Entry.expired (now : Nat) (entry : Entry) : Bool := entry.expiresAt.any (· ≤ now)

structure Limits where
  ttl : Nat
  maxEntries : Nat
  maxStoredBytes : Nat
  maxResponseBytes : Nat

/-- `State`, and the counter that gives the owners their tokens. -/
structure State where
  entries : Table String Entry
  storedBytes : Nat
  nextOwner : Nat

namespace State

/-- The coordinator at its start. -/
def fresh : State := ⟨∅, 0, 1⟩

/-- An entry is removed, with its bytes. -/
def dropEntry (key : String) (state : State) : State :=
  match state.entries.lookup key with
  | none => state
  | some entry =>
    { state with entries := state.entries.erase key, storedBytes := state.storedBytes - entry.bytes }

/-- `prune_expired`. -/
def pruneExpired (now : Nat) (state : State) : State :=
  let expired := (state.entries.entries.filter fun row => row.2.expired now).map Sigma.fst
  expired.foldl (fun rest key => rest.dropEntry key) state

/-- `evict_oldest_completed`: `none` when there is nothing to evict. -/
def evictOldestCompleted (exclude : Option String) (state : State) : Option State :=
  let candidates := state.entries.entries.filter fun row =>
    exclude != some row.1 && row.2.ownerToken.isNone && row.2.completedAt.isSome
  (candidates.argmin fun row => row.2.completedAt.getD 0).map fun row => state.dropEntry row.1

/-- The loop of `claim`: whether there is room for another entry. An eviction takes an entry, so their
number bounds the rounds. -/
def makeEntryRoom (limits : Limits) : Nat → State → Bool × State
  | 0, state => (false, state)
  | fuel + 1, state =>
    if size state.entries < limits.maxEntries then (true, state)
    else
      match state.evictOldestCompleted none with
      | none => (false, state)
      | some after => makeEntryRoom limits fuel after

/-- The loop of `complete`. -/
def makeBytesRoom (limits : Limits) (key : String) (bytes : Nat) : Nat → State → State
  | 0, state => state
  | fuel + 1, state =>
    if state.storedBytes + bytes ≤ limits.maxStoredBytes then state
    else
      match state.evictOldestCompleted (some key) with
      | none => state
      | some after => makeBytesRoom limits key bytes fuel after

end State

/-! ### Critical sections -/

structure RequestIdentity where
  recordKey : String
  requestHash : String
  deriving DecidableEq

structure Owner where
  recordKey : String
  token : Nat
  deriving DecidableEq

/-- What one round of `claim` comes to. -/
inductive Claim where
  | owner (owner : Owner)
  | response (response : Response)
  /-- The claim waits for the owner to be notified. -/
  | wait
  deriving DecidableEq

/-- What an entry is to a request. -/
def Entry.answer (requestHash : String) (entry : Entry) : Claim :=
  if entry.requestHash ≠ requestHash then .response conflict
  else
    match entry.response with
    | some response => .response (replayResponse response)
    | none =>
      if entry.nonreplayableReason.isSome then .response executedNonreplayable else .wait

/-- The entry of a new owner. -/
def Entry.inProgress (requestHash : String) (token : Nat) : Entry where
  requestHash
  ownerToken := some token
  response := none
  nonreplayableReason := none
  completedAt := none
  expiresAt := none

namespace State

/-- One round of `claim`. -/
def claim (limits : Limits) (now : Nat) (identity : RequestIdentity) (state : State) : Claim × State :=
  let state := state.pruneExpired now
  match state.entries.lookup identity.recordKey with
  | some entry => (entry.answer identity.requestHash, state)
  | none =>
    match state.makeEntryRoom limits (size state.entries + 1) with
    | (false, state) => (.response capacityExhausted, state)
    | (true, state) =>
      (.owner ⟨identity.recordKey, state.nextOwner⟩,
        { state with
          entries := state.entries.insert identity.recordKey
            (.inProgress identity.requestHash state.nextOwner)
          nextOwner := state.nextOwner + 1 })

/-- `entry.owner_token == Some(self.token)`. -/
def holds (state : State) (owner : Owner) : Bool :=
  (state.entries.lookup owner.recordKey).any fun entry => entry.ownerToken == some owner.token

/-- A change of the entry under a key. -/
def changeEntry (key : String) (change : Entry → Entry) (state : State) : State :=
  match state.entries.lookup key with
  | none => state
  | some entry => { state with entries := state.entries.replace key (change entry) }

/-- `nonreplayable_inner`. -/
def nonreplayableInner (limits : Limits) (now : Nat) (reason : String) (owner : Owner) (state : State) :
    State :=
  if state.holds owner then
    state.changeEntry owner.recordKey fun entry =>
      { entry with
        ownerToken := none
        nonreplayableReason := some reason
        completedAt := some now
        expiresAt := some (now + limits.ttl) }
  else state

/-- `release_inner`, and the task that `drop` spawns. -/
def releaseInner (owner : Owner) (state : State) : State :=
  if state.holds owner then { state with entries := state.entries.erase owner.recordKey } else state

/-- How the section of `complete` ends. -/
inductive Completion where
  /-- The entry is not the owner's. -/
  | stale
  /-- The response does not fit. -/
  | noRoom
  | settled
  deriving DecidableEq

/-- The section of `complete`. -/
def storeResponse (limits : Limits) (now : Nat) (response : CachedResponse) (owner : Owner)
    (state : State) : Completion × State :=
  let state := state.pruneExpired now
  if !state.holds owner then (.stale, state)
  else
    let state := state.makeBytesRoom limits owner.recordKey response.bytes (size state.entries + 1)
    if limits.maxStoredBytes < state.storedBytes + response.bytes then (.noRoom, state)
    else
      let stored := state.changeEntry owner.recordKey fun entry =>
        { entry with
          ownerToken := none
          response := some response
          completedAt := some now
          expiresAt := some (now + limits.ttl) }
      (.settled, { stored with storedBytes := stored.storedBytes + response.bytes })

/-- A status that may be replayed. -/
def cacheableStatus (status : Nat) : Bool := status ≤ 499 && !([408, 425, 429, 499].contains status)

/-- `complete`, up to the end of its first section. -/
def complete (limits : Limits) (now : Nat) (response : CachedResponse) (owner : Owner) (state : State) :
    Completion × State :=
  let response := { response with headers := Headers.remove statusHeader response.headers }
  if !cacheableStatus response.status then (.settled, state.releaseInner owner)
  else if limits.maxResponseBytes < response.bytes then
    (.settled, state.nonreplayableInner limits now "response_too_large" owner)
  else state.storeResponse limits now response owner

end State

/-! ### Clients -/

/-- The coordinator and the owners that have not settled their entries. -/
structure System where
  state : State
  owners : List Owner

/-- A critical section of some client. -/
inductive Event where
  | claim (now : Nat) (identity : RequestIdentity)
  | complete (owner : Owner) (now : Nat) (response : CachedResponse)
  /-- `nonreplayable`, and the end of a `complete` that found no room. -/
  | nonreplayable (owner : Owner) (now : Nat) (reason : String)
  /-- `release`, or an owner that was dropped. -/
  | release (owner : Owner)
  /-- The map is iterated in another order. -/
  | rehash (entries : Table String Entry)

namespace System

/-- Nobody has claimed anything. -/
def fresh : System := ⟨.fresh, []⟩

/-- An owner has settled. -/
def settle (owner : Owner) (state : State) (system : System) : System :=
  ⟨state, system.owners.filter (· ≠ owner)⟩

/-- A round of `claim`. -/
def claim (limits : Limits) (now : Nat) (identity : RequestIdentity) (system : System) : System :=
  match system.state.claim limits now identity with
  | (.owner owner, state) => ⟨state, owner :: system.owners⟩
  | (_, state) => { system with state }

/-- An owner acts, if it has not settled. -/
def act (owner : Owner) (call : State → State.Completion × State) (system : System) : System :=
  if owner ∈ system.owners then
    match call system.state with
    | (.noRoom, state) => { system with state }
    | (_, state) => system.settle owner state
  else system

/-- **One section.** -/
def step (limits : Limits) (system : System) : Event → System
  | .claim now identity => system.claim limits now identity
  | .complete owner now response => system.act owner (State.complete limits now response owner)
  | .nonreplayable owner now reason =>
    system.act owner fun state => (.settled, state.nonreplayableInner limits now reason owner)
  | .release owner => system.act owner fun state => (.settled, state.releaseInner owner)
  | .rehash entries =>
    if entries.entries.Perm system.state.entries.entries then
      { system with state := { system.state with entries } }
    else system

/-- The sections of a run. -/
def run (limits : Limits) (events : List Event) : System := events.foldl (step limits) fresh

end System

/-! ### Removals -/

/-- `stored_bytes` is the sum of the bytes of the cached responses. -/
def State.Accounted (state : State) : Prop := state.storedBytes = weight Entry.bytes state.entries

/-- **Some entries were removed**, each for the reason `gone`, and nothing else happened. -/
structure Shrunk (gone : String → Entry → Prop) (before after : State) : Prop where
  kept : ∀ key entry, before.entries.lookup key = some entry →
    after.entries.lookup key = some entry ∨ (after.entries.lookup key = none ∧ gone key entry)
  old : ∀ key entry, after.entries.lookup key = some entry → before.entries.lookup key = some entry
  accounted : before.Accounted → after.Accounted
  stored : after.storedBytes ≤ before.storedBytes
  fewer : size after.entries ≤ size before.entries
  next : after.nextOwner = before.nextOwner

namespace Shrunk

variable {gone : String → Entry → Prop} {before between after : State}

theorem refl (gone : String → Entry → Prop) (state : State) : Shrunk gone state state where
  kept _ _ found := Or.inl found
  old _ _ found := found
  accounted account := account
  stored := Nat.le_refl _
  fewer := Nat.le_refl _
  next := rfl

theorem trans (first : Shrunk gone before between) (second : Shrunk gone between after) :
    Shrunk gone before after where
  kept key entry found := by
    rcases first.kept key entry found with stays | ⟨absent, reason⟩
    · exact second.kept key entry stays
    · refine Or.inr ⟨?_, reason⟩
      cases back : after.entries.lookup key with
      | none => rfl
      | some other => exact absurd (absent.symm.trans (second.old key other back)) nofun
  old key entry found := first.old key entry (second.old key entry found)
  accounted account := second.accounted (first.accounted account)
  stored := Nat.le_trans second.stored first.stored
  fewer := Nat.le_trans second.fewer first.fewer
  next := second.next.trans first.next

theorem weaken {gone' : String → Entry → Prop} (shrunk : Shrunk gone before after)
    (weaker : ∀ key entry, before.entries.lookup key = some entry → gone key entry → gone' key entry) :
    Shrunk gone' before after where
  kept key entry found :=
    (shrunk.kept key entry found).imp id fun ⟨absent, reason⟩ => ⟨absent, weaker key entry found reason⟩
  old := shrunk.old
  accounted := shrunk.accounted
  stored := shrunk.stored
  fewer := shrunk.fewer
  next := shrunk.next

theorem stays (shrunk : Shrunk gone before after) {key : String} {entry : Entry}
    (found : before.entries.lookup key = some entry) (not_gone : ¬ gone key entry) :
    after.entries.lookup key = some entry :=
  (shrunk.kept key entry found).resolve_right fun ⟨_, reason⟩ => not_gone reason

end Shrunk

namespace State

theorem dropEntry_shrunk (key : String) (state : State) :
    Shrunk (fun other _ => other = key) state (state.dropEntry key) := by
  unfold dropEntry
  cases found : state.entries.lookup key with
  | none => exact .refl _ _
  | some entry =>
    have weighed := weight_erase Entry.bytes found
    refine ⟨fun other value here => ?_, fun other value here => (lookup_of_lookup_erase here).2, ?_,
      Nat.sub_le _ _, size_erase_le _ _, rfl⟩
    · by_cases same : other = key
      · exact Or.inr ⟨same ▸ AList.lookup_erase key _, same⟩
      · exact Or.inl ((lookup_erase_of_ne same).trans here)
    · intro account
      show state.storedBytes - entry.bytes = weight Entry.bytes (state.entries.erase key)
      rw [account]
      omega

theorem foldl_dropEntry_shrunk (keys : List String) (state : State) :
    Shrunk (fun key _ => key ∈ keys) state (keys.foldl (fun rest key => rest.dropEntry key) state) := by
  induction keys generalizing state with
  | nil => exact .refl _ _
  | cons key rest ih =>
    refine ((dropEntry_shrunk key state).weaken ?_).trans ((ih _).weaken ?_)
    · rintro other entry - rfl
      exact List.mem_cons_self
    · exact fun other entry _ member => List.mem_cons_of_mem _ member

/-- **Pruning removes what has expired.** -/
theorem pruneExpired_shrunk (now : Nat) (state : State) :
    Shrunk (fun _ entry => entry.expired now = true) state (state.pruneExpired now) := by
  refine (foldl_dropEntry_shrunk _ state).weaken fun key entry found member => ?_
  obtain ⟨⟨_, other⟩, kept, rfl⟩ := List.mem_map.mp member
  obtain ⟨row, expired⟩ := List.mem_filter.mp kept
  have same : some entry = some other := found.symm.trans (lookup_eq_some_iff.mpr row)
  cases same
  simpa using expired

/-- **Evicting removes a completed entry.** -/
theorem evictOldestCompleted_shrunk {exclude : Option String} {state after : State}
    (evicted : state.evictOldestCompleted exclude = some after) :
    Shrunk (fun key entry => exclude ≠ some key ∧ entry.ownerToken = none) state after ∧
      size after.entries < size state.entries := by
  obtain ⟨⟨key, entry⟩, oldest, rfl⟩ := Option.map_eq_some_iff.mp evicted
  obtain ⟨row, candidate⟩ := List.mem_filter.mp (List.argmin_mem oldest)
  have found : state.entries.lookup key = some entry := lookup_eq_some_iff.mpr row
  have completed : exclude ≠ some key ∧ entry.ownerToken = none := by
    simp only [Bool.and_eq_true, bne_iff_ne, ne_eq, Option.isNone_iff_eq_none] at candidate
    exact candidate.1
  refine ⟨(dropEntry_shrunk key state).weaken ?_, ?_⟩
  · rintro other value here rfl
    cases found.symm.trans here
    exact completed
  · have counted := size_erase found
    simp only [dropEntry, found]
    omega

theorem makeEntryRoom_shrunk (limits : Limits) (fuel : Nat) (state : State) :
    Shrunk (fun _ entry => entry.ownerToken = none ∧ limits.maxEntries ≤ size state.entries) state
        (state.makeEntryRoom limits fuel).2 ∧
      ((state.makeEntryRoom limits fuel).1 = true →
        size (state.makeEntryRoom limits fuel).2.entries < limits.maxEntries) := by
  induction fuel generalizing state with
  | zero => exact ⟨.refl _ _, nofun⟩
  | succ fuel ih =>
    rw [makeEntryRoom]
    split
    · rename_i room
      exact ⟨.refl _ _, fun _ => room⟩
    · rename_i full
      cases evicted : state.evictOldestCompleted none with
      | none => exact ⟨.refl _ _, nofun⟩
      | some after =>
        obtain ⟨shrunk, smaller⟩ := evictOldestCompleted_shrunk evicted
        obtain ⟨later, room⟩ := ih after
        refine ⟨(shrunk.weaken fun _ _ _ gone => ⟨gone.2, by omega⟩).trans
          (later.weaken fun _ _ _ gone => ⟨gone.1, by omega⟩), room⟩

theorem makeBytesRoom_shrunk (limits : Limits) (key : String) (bytes fuel : Nat) (state : State) :
    Shrunk (fun other entry => other ≠ key ∧ entry.ownerToken = none ∧
        limits.maxStoredBytes < state.storedBytes + bytes) state
      (state.makeBytesRoom limits key bytes fuel) := by
  induction fuel generalizing state with
  | zero => exact .refl _ _
  | succ fuel ih =>
    rw [makeBytesRoom]
    split
    · exact .refl _ _
    · cases evicted : state.evictOldestCompleted (some key) with
      | none => exact .refl _ _
      | some after =>
        obtain ⟨shrunk, -⟩ := evictOldestCompleted_shrunk evicted
        have stored := shrunk.stored
        refine (shrunk.weaken fun other _ _ gone => ⟨?_, gone.2, by omega⟩).trans
          ((ih after).weaken fun _ _ _ gone => ⟨gone.1, gone.2.1, by omega⟩)
        exact fun same => gone.1 (congrArg some same.symm)

end State

/-! ### The invariant -/

/-- An entry whose owner is still at work. -/
structure Entry.InProgress (token : Nat) (entry : Entry) : Prop where
  owner : entry.ownerToken = some token
  response : entry.response = none
  reason : entry.nonreplayableReason = none
  completed : entry.completedAt = none
  expires : entry.expiresAt = none

/-- An entry whose owner has completed it. -/
structure Entry.Settled (entry : Entry) : Prop where
  owner : entry.ownerToken = none
  result : (entry.response.isSome ∧ entry.nonreplayableReason = none) ∨
    (entry.response = none ∧ entry.nonreplayableReason.isSome)
  expires : entry.expiresAt.isSome

/-- The phases of an entry. -/
def Entry.WellFormed (entry : Entry) : Prop := (∃ token, entry.InProgress token) ∨ entry.Settled

variable {entry : Entry}

/-- An entry has an owner exactly while it has neither a response nor a reason. -/
theorem Entry.WellFormed.owned_iff (formed : entry.WellFormed) :
    entry.ownerToken.isSome ↔ entry.response = none ∧ entry.nonreplayableReason = none := by
  rcases formed with ⟨token, progress⟩ | settled
  · simp [progress.owner, progress.response, progress.reason]
  · rcases settled.result with ⟨response, reason⟩ | ⟨response, reason⟩
    · simp [settled.owner, Option.isSome_iff_ne_none.mp response]
    · simp [settled.owner, Option.isSome_iff_ne_none.mp reason]

theorem Entry.WellFormed.inProgress (formed : entry.WellFormed) {token : Nat}
    (owned : entry.ownerToken = some token) : entry.InProgress token := by
  rcases formed with ⟨other, progress⟩ | settled
  · cases owned.symm.trans progress.owner
    exact progress
  · cases owned.symm.trans settled.owner

theorem Entry.InProgress.not_expired {token : Nat} (progress : entry.InProgress token)
    (now : Nat) : entry.expired now = false := by
  simp [expired, progress.expires]

theorem Entry.InProgress.bytes {token : Nat} (progress : entry.InProgress token) :
    entry.bytes = 0 := by
  simp [Entry.bytes, progress.response]

/-- **What holds of the coordinator.** -/
structure State.Sound (limits : Limits) (state : State) : Prop where
  accounted : state.Accounted
  bounded : state.storedBytes ≤ limits.maxStoredBytes
  fewer : size state.entries ≤ limits.maxEntries
  formed : ∀ key entry, state.entries.lookup key = some entry → entry.WellFormed

namespace State

variable {limits : Limits} {state : State} {owner : Owner}

theorem holds_iff :
    state.holds owner = true ↔ ∃ entry, state.entries.lookup owner.recordKey = some entry ∧
      entry.ownerToken = some owner.token := by
  simp [holds, Option.any_eq_true]

theorem sound_fresh (limits : Limits) : State.fresh.Sound limits where
  accounted := rfl
  bounded := Nat.zero_le _
  fewer := Nat.zero_le _
  formed _ _ found := absurd found nofun

theorem Sound.shrunk {gone : String → Entry → Prop} {after : State} (sound : state.Sound limits)
    (shrunk : Shrunk gone state after) : after.Sound limits where
  accounted := shrunk.accounted sound.accounted
  bounded := Nat.le_trans shrunk.stored sound.bounded
  fewer := Nat.le_trans shrunk.fewer sound.fewer
  formed key entry found := sound.formed key entry (shrunk.old key entry found)

theorem Sound.spares_owned (sound : state.Sound limits) (now : Nat) (key : String) (entry : Entry)
    (token : Nat) (found : state.entries.lookup key = some entry)
    (owned : entry.ownerToken = some token) : ¬ entry.expired now = true := by
  rw [((sound.formed key entry found).inProgress owned).not_expired now]
  exact Bool.false_ne_true

/-- **Changing an entry.** -/
theorem changeEntry_entries {key : String}
    (found : state.entries.lookup key = some entry) (change : Entry → Entry) :
    state.changeEntry key change =
      { state with entries := state.entries.replace key (change entry) } := by
  simp only [changeEntry, found]

/-- An entry that its owner completes with a response of some bytes, or with none. -/
theorem sound_changeEntry {key : String} {token : Nat} (change : Entry → Entry)
    (sound : state.Sound limits) (found : state.entries.lookup key = some entry)
    (progress : entry.InProgress token) (formed : (change entry).WellFormed)
    (room : state.storedBytes + (change entry).bytes ≤ limits.maxStoredBytes) :
    ({ state.changeEntry key change with
        storedBytes := state.storedBytes + (change entry).bytes } : State).Sound limits := by
  have weighed := weight_replace Entry.bytes found (change entry)
  rw [progress.bytes, Nat.add_zero] at weighed
  rw [changeEntry_entries found]
  refine ⟨?_, room, (size_replace _ _ _).trans_le sound.fewer, fun other value here => ?_⟩
  · show state.storedBytes + (change entry).bytes = weight Entry.bytes (state.entries.replace key _)
    rw [weighed, sound.accounted]
  · rcases lookup_of_lookup_replace here with ⟨-, rfl⟩ | ⟨-, old⟩
    · exact formed
    · exact sound.formed other value old

theorem nonreplayableInner_sound (sound : state.Sound limits) (now : Nat) (reason : String)
    (owner : Owner) : (state.nonreplayableInner limits now reason owner).Sound limits := by
  unfold nonreplayableInner
  split
  · rename_i held
    obtain ⟨entry, found, owned⟩ := holds_iff.mp held
    have progress := (sound.formed _ _ found).inProgress owned
    have kept := sound_changeEntry
      (fun entry =>
        { entry with
          ownerToken := none
          nonreplayableReason := some reason
          completedAt := some now
          expiresAt := some (now + limits.ttl) })
      sound found progress (.inr ⟨rfl, .inr ⟨progress.response, rfl⟩, rfl⟩)
      (by simpa [Entry.bytes, progress.response] using sound.bounded)
    simpa [Entry.bytes, progress.response, changeEntry_entries found] using kept
  · exact sound

theorem releaseInner_sound (sound : state.Sound limits) (owner : Owner) :
    (state.releaseInner owner).Sound limits := by
  unfold releaseInner
  split
  · rename_i held
    obtain ⟨entry, found, owned⟩ := holds_iff.mp held
    have progress := (sound.formed _ _ found).inProgress owned
    have weighed := weight_erase Entry.bytes found
    rw [progress.bytes, Nat.add_zero] at weighed
    exact ⟨sound.accounted.trans weighed.symm, sound.bounded, (size_erase_le _ _).trans sound.fewer,
      fun other value here => sound.formed other value (lookup_of_lookup_erase here).2⟩
  · exact sound

/-! ### What a section can do -/

/-- **A round of `claim`**: it meets an entry, finds no room, or becomes the owner of a new entry. -/
theorem claim_cases (limits : Limits) (now : Nat) (identity : RequestIdentity) (state : State) :
    (∃ entry, (state.pruneExpired now).entries.lookup identity.recordKey = some entry ∧
      state.claim limits now identity = (entry.answer identity.requestHash, state.pruneExpired now)) ∨
    (state.pruneExpired now).entries.lookup identity.recordKey = none ∧
      ∃ roomy, Shrunk (fun _ entry => entry.ownerToken = none ∧
          limits.maxEntries ≤ size (state.pruneExpired now).entries) (state.pruneExpired now) roomy ∧
        (state.claim limits now identity = (.response capacityExhausted, roomy) ∨
          size roomy.entries < limits.maxEntries ∧
          state.claim limits now identity =
            (.owner ⟨identity.recordKey, roomy.nextOwner⟩,
              { roomy with
                entries := roomy.entries.insert identity.recordKey
                  (.inProgress identity.requestHash roomy.nextOwner)
                nextOwner := roomy.nextOwner + 1 })) := by
  cases found : (state.pruneExpired now).entries.lookup identity.recordKey with
  | some entry =>
    refine Or.inl ⟨entry, rfl, ?_⟩
    simp only [claim, found]
  | none =>
    obtain ⟨shrunk, room⟩ := makeEntryRoom_shrunk limits
      (size (state.pruneExpired now).entries + 1) (state.pruneExpired now)
    refine Or.inr ⟨rfl, _, shrunk, ?_⟩
    simp only [claim, found]
    cases made : (state.pruneExpired now).makeEntryRoom limits
      (size (state.pruneExpired now).entries + 1) with
    | mk enough roomy =>
      rw [made] at room
      cases enough with
      | false => exact Or.inl rfl
      | true => exact Or.inr ⟨room rfl, rfl⟩

/-- **The section of `complete`.** -/
theorem storeResponse_cases (limits : Limits) (now : Nat) (response : CachedResponse) (owner : Owner)
    (state : State) :
    ((state.pruneExpired now).holds owner = false ∧
      state.storeResponse limits now response owner = (.stale, state.pruneExpired now)) ∨
    (state.pruneExpired now).holds owner = true ∧
      ∃ roomy, Shrunk (fun key entry => key ≠ owner.recordKey ∧ entry.ownerToken = none ∧
          limits.maxStoredBytes < (state.pruneExpired now).storedBytes + response.bytes)
          (state.pruneExpired now) roomy ∧
        (state.storeResponse limits now response owner = (.noRoom, roomy) ∨
          roomy.storedBytes + response.bytes ≤ limits.maxStoredBytes ∧
          state.storeResponse limits now response owner =
            (.settled, { roomy.changeEntry owner.recordKey fun entry =>
              { entry with
                ownerToken := none
                response := some response
                completedAt := some now
                expiresAt := some (now + limits.ttl) } with
              storedBytes := roomy.storedBytes + response.bytes })) := by
  cases held : (state.pruneExpired now).holds owner with
  | false =>
    refine Or.inl ⟨rfl, ?_⟩
    simp [storeResponse, held]
  | true =>
    refine Or.inr ⟨rfl, _, makeBytesRoom_shrunk limits owner.recordKey response.bytes
      (size (state.pruneExpired now).entries + 1) (state.pruneExpired now), ?_⟩
    simp only [storeResponse, held, Bool.not_true, Bool.false_eq_true, if_false]
    split
    · exact Or.inl rfl
    · rename_i room
      refine Or.inr ⟨Nat.le_of_not_lt room, ?_⟩
      unfold changeEntry
      split <;> rfl

theorem claim_sound (sound : state.Sound limits) (now : Nat) (identity : RequestIdentity) :
    (state.claim limits now identity).2.Sound limits := by
  have pruned := sound.shrunk (pruneExpired_shrunk now state)
  rcases claim_cases limits now identity state with
    ⟨entry, -, outcome⟩ | ⟨absent, roomy, shrunk, outcome | ⟨room, outcome⟩⟩
  · rw [outcome]
    exact pruned
  · rw [outcome]
    exact pruned.shrunk shrunk
  · have roomySound := pruned.shrunk shrunk
    have free : roomy.entries.lookup identity.recordKey = none := by
      cases back : roomy.entries.lookup identity.recordKey with
      | none => rfl
      | some entry => exact absurd (absent.symm.trans (shrunk.old _ _ back)) nofun
    rw [outcome]
    refine ⟨?_, roomySound.bounded, ?_, fun key entry found => ?_⟩
    · show roomy.storedBytes = weight Entry.bytes (roomy.entries.insert _ _)
      rw [weight_insert _ free, roomySound.accounted]
      rfl
    · exact (size_insert_of_none free _).trans_le room
    · by_cases same : key = identity.recordKey
      · subst same
        cases (AList.lookup_insert _).symm.trans found
        exact .inl ⟨_, ⟨rfl, rfl, rfl, rfl, rfl⟩⟩
      · exact roomySound.formed key entry ((lookup_insert_of_ne same).symm.trans found)

theorem storeResponse_sound (sound : state.Sound limits) (now : Nat) (response : CachedResponse)
    (owner : Owner) : (state.storeResponse limits now response owner).2.Sound limits := by
  have pruned := sound.shrunk (pruneExpired_shrunk now state)
  rcases storeResponse_cases limits now response owner state with
    ⟨-, outcome⟩ | ⟨held, roomy, shrunk, outcome | ⟨room, outcome⟩⟩
  · rw [outcome]
    exact pruned
  · rw [outcome]
    exact pruned.shrunk shrunk
  · have roomySound := pruned.shrunk shrunk
    obtain ⟨entry, found, owned⟩ := holds_iff.mp held
    have stays := shrunk.stays found fun gone => gone.1 rfl
    have progress := (pruned.formed _ _ found).inProgress owned
    rw [outcome]
    exact sound_changeEntry
      (fun entry =>
        { entry with
          ownerToken := none
          response := some response
          completedAt := some now
          expiresAt := some (now + limits.ttl) })
      roomySound stays progress (.inr ⟨rfl, .inl ⟨rfl, progress.reason⟩, rfl⟩) room

theorem complete_sound (sound : state.Sound limits) (now : Nat) (response : CachedResponse)
    (owner : Owner) : (state.complete limits now response owner).2.Sound limits := by
  unfold complete
  dsimp only
  split
  · exact releaseInner_sound sound owner
  split
  · exact nonreplayableInner_sound sound now _ owner
  · exact storeResponse_sound sound now _ owner

/-! ### What a section leaves alone -/

section Owned

variable {key : String} {entry : Entry} {token : Nat}

theorem key_ne_of_holds (held : state.holds owner = true)
    (found : state.entries.lookup key = some entry) (owned : entry.ownerToken = some token)
    (other : owner ≠ ⟨key, token⟩) : key ≠ owner.recordKey := by
  rintro rfl
  obtain ⟨own, here, same⟩ := holds_iff.mp held
  cases found.symm.trans here
  cases owned.symm.trans same
  exact other rfl

theorem claim_keeps_owned (sound : state.Sound limits) (now : Nat) (identity : RequestIdentity)
    (found : state.entries.lookup key = some entry) (owned : entry.ownerToken = some token) :
    (state.claim limits now identity).2.entries.lookup key = some entry := by
  have stays := (pruneExpired_shrunk now state).stays found
    (sound.spares_owned now key entry token found owned)
  rcases claim_cases limits now identity state with
    ⟨other, -, outcome⟩ | ⟨absent, roomy, shrunk, outcome | ⟨room, outcome⟩⟩
  · rw [outcome]
    exact stays
  · rw [outcome]
    exact shrunk.stays stays fun gone => absurd (gone.1.symm.trans owned) nofun
  · have kept := shrunk.stays stays fun gone => absurd (gone.1.symm.trans owned) nofun
    have different : key ≠ identity.recordKey := by
      rintro rfl
      exact absurd (absent.symm.trans stays) nofun
    rw [outcome]
    exact (lookup_insert_of_ne different).trans kept

theorem changeEntry_lookup_of_ne {other : String} (change : Entry → Entry) (different : key ≠ other) :
    (state.changeEntry other change).entries.lookup key = state.entries.lookup key := by
  unfold changeEntry
  split
  · rfl
  · exact lookup_replace_of_ne _ different

theorem nonreplayableInner_keeps_owned (now : Nat) (reason : String)
    (found : state.entries.lookup key = some entry) (owned : entry.ownerToken = some token)
    (other : owner ≠ ⟨key, token⟩) :
    (state.nonreplayableInner limits now reason owner).entries.lookup key = some entry := by
  unfold nonreplayableInner
  split
  · rename_i held
    rw [changeEntry_lookup_of_ne _ (key_ne_of_holds held found owned other)]
    exact found
  · exact found

theorem releaseInner_keeps_owned (found : state.entries.lookup key = some entry)
    (owned : entry.ownerToken = some token) (other : owner ≠ ⟨key, token⟩) :
    (state.releaseInner owner).entries.lookup key = some entry := by
  unfold releaseInner
  split
  · rename_i held
    exact (lookup_erase_of_ne (key_ne_of_holds held found owned other)).trans found
  · exact found

theorem storeResponse_keeps_owned (sound : state.Sound limits) (now : Nat) (response : CachedResponse)
    (found : state.entries.lookup key = some entry) (owned : entry.ownerToken = some token)
    (other : owner ≠ ⟨key, token⟩) :
    (state.storeResponse limits now response owner).2.entries.lookup key = some entry := by
  have stays := (pruneExpired_shrunk now state).stays found
    (sound.spares_owned now key entry token found owned)
  rcases storeResponse_cases limits now response owner state with
    ⟨-, outcome⟩ | ⟨held, roomy, shrunk, outcome⟩
  · rw [outcome]
    exact stays
  · have kept := shrunk.stays stays fun gone => absurd (gone.2.1.symm.trans owned) nofun
    rcases outcome with outcome | ⟨room, outcome⟩
    · rw [outcome]
      exact kept
    · rw [outcome]
      exact (changeEntry_lookup_of_ne _ (key_ne_of_holds held stays owned other)).trans kept

theorem complete_keeps_owned (sound : state.Sound limits) (now : Nat) (response : CachedResponse)
    (found : state.entries.lookup key = some entry) (owned : entry.ownerToken = some token)
    (other : owner ≠ ⟨key, token⟩) :
    (state.complete limits now response owner).2.entries.lookup key = some entry := by
  unfold complete
  dsimp only
  split
  · exact releaseInner_keeps_owned found owned other
  split
  · exact nonreplayableInner_keeps_owned now _ found owned other
  · exact storeResponse_keeps_owned sound now _ found owned other

/-- A `complete` that finds no room leaves the owner its entry. -/
theorem complete_noRoom (sound : state.Sound limits) {now : Nat} {response : CachedResponse}
    (noRoom : (state.complete limits now response owner).1 = .noRoom)
    (held : state.holds owner = true) :
    (state.complete limits now response owner).2.holds owner = true := by
  obtain ⟨entry, found, owned⟩ := holds_iff.mp held
  have stays := (pruneExpired_shrunk now state).stays found
    (sound.spares_owned now _ entry _ found owned)
  revert noRoom
  unfold complete
  dsimp only
  split
  · exact nofun
  split
  · exact nofun
  · rcases storeResponse_cases limits now
      { response with headers := Headers.remove statusHeader response.headers } owner state with
      ⟨-, outcome⟩ | ⟨-, roomy, shrunk, outcome | ⟨-, outcome⟩⟩
    · rw [outcome]
      exact nofun
    · rw [outcome]
      exact fun _ => holds_iff.mpr ⟨entry, shrunk.stays stays fun gone => gone.1 rfl, owned⟩
    · rw [outcome]
      exact nofun

end Owned

/-- **A stale owner changes nothing**: its `complete` at most prunes what has expired. -/
theorem stale_unchanged (stale : state.holds owner = false) (now : Nat) (reason : String)
    (response : CachedResponse) :
    state.nonreplayableInner limits now reason owner = state ∧ state.releaseInner owner = state ∧
      ((state.complete limits now response owner).2 = state ∨
        (state.complete limits now response owner).2 = state.pruneExpired now) := by
  have kept : state.nonreplayableInner limits now reason owner = state := by
    simp [nonreplayableInner, stale]
  have released : state.releaseInner owner = state := by simp [releaseInner, stale]
  refine ⟨kept, released, ?_⟩
  unfold complete
  dsimp only
  split
  · exact Or.inl released
  split
  · exact Or.inl (by simp [nonreplayableInner, stale])
  · rcases storeResponse_cases limits now
      { response with headers := Headers.remove statusHeader response.headers } owner state with
      ⟨-, outcome⟩ | ⟨held, -⟩
    · rw [outcome]
      exact Or.inr rfl
    · -- pruning gives no entry back
      obtain ⟨entry, found, owned⟩ := holds_iff.mp held
      have back := holds_iff.mpr ⟨entry, (pruneExpired_shrunk now state).old _ _ found, owned⟩
      exact absurd (stale.symm.trans back) Bool.false_ne_true

end State

/-! ### Runs -/

/-- The owner that an event is an operation of. -/
def Event.actor : Event → Option Owner
  | .claim _ _ => none
  | .complete owner _ _ => some owner
  | .nonreplayable owner _ _ => some owner
  | .release owner => some owner
  | .rehash _ => none

namespace System

/-- **The invariant of a system**: every owner that has not settled has its entry, and no two of them
share a key. -/
structure Sound (limits : Limits) (system : System) : Prop where
  state : system.state.Sound limits
  held : ∀ owner ∈ system.owners, system.state.holds owner = true
  single : (system.owners.map Owner.recordKey).Nodup

variable {limits : Limits} {system : System}

/-- **A section of an owner** keeps the coordinator sound and the entries of other owners, and its own
entry if the owner has not settled with it. -/
structure OwnerCall (limits : Limits) (owner : Owner) (call : State → State.Completion × State) : Prop where
  sound : ∀ state, state.Sound limits → (call state).2.Sound limits
  keeps : ∀ state key entry token, state.Sound limits → state.entries.lookup key = some entry →
    entry.ownerToken = some token → owner ≠ ⟨key, token⟩ →
    (call state).2.entries.lookup key = some entry
  noRoom : ∀ state, state.Sound limits → (call state).1 = .noRoom → state.holds owner = true →
    (call state).2.holds owner = true

theorem complete_call (limits : Limits) (owner : Owner) (now : Nat) (response : CachedResponse) :
    OwnerCall limits owner (State.complete limits now response owner) where
  sound _ sound := State.complete_sound sound now response owner
  keeps _ _ _ _ sound found owned other := State.complete_keeps_owned sound now response found owned other
  noRoom _ sound none held := State.complete_noRoom sound none held

theorem nonreplayable_call (limits : Limits) (owner : Owner) (now : Nat) (reason : String) :
    OwnerCall limits owner fun state => (.settled, state.nonreplayableInner limits now reason owner) where
  sound _ sound := State.nonreplayableInner_sound sound now reason owner
  keeps _ _ _ _ _ found owned other := State.nonreplayableInner_keeps_owned now reason found owned other
  noRoom _ _ settled _ := absurd settled nofun

theorem release_call (limits : Limits) (owner : Owner) :
    OwnerCall limits owner fun state => (.settled, state.releaseInner owner) where
  sound _ sound := State.releaseInner_sound sound owner
  keeps _ _ _ _ _ found owned other := State.releaseInner_keeps_owned found owned other
  noRoom _ _ settled _ := absurd settled nofun

theorem act_cases (system : System) (owner : Owner) (call : State → State.Completion × State) :
    (owner ∉ system.owners ∧ system.act owner call = system) ∨
    owner ∈ system.owners ∧
      ((call system.state).1 = .noRoom ∧
          system.act owner call = { system with state := (call system.state).2 } ∨
        system.act owner call = system.settle owner (call system.state).2) := by
  by_cases member : owner ∈ system.owners
  · refine Or.inr ⟨member, ?_⟩
    unfold act
    rw [if_pos member]
    cases outcome : call system.state with
    | mk completion state =>
      cases completion with
      | noRoom => exact Or.inl ⟨rfl, rfl⟩
      | stale => exact Or.inr rfl
      | settled => exact Or.inr rfl
  · exact Or.inl ⟨member, if_neg member⟩

theorem act_state (system : System) (owner : Owner) (call : State → State.Completion × State) :
    (system.act owner call).state = system.state ∨
      (system.act owner call).state = (call system.state).2 := by
  rcases act_cases system owner call with ⟨-, same⟩ | ⟨-, ⟨-, acted⟩ | acted⟩
  · exact Or.inl (congrArg System.state same)
  · exact Or.inr (congrArg System.state acted)
  · exact Or.inr (congrArg System.state acted)

theorem claim_state (system : System) (now : Nat) (identity : RequestIdentity) :
    (system.claim limits now identity).state = (system.state.claim limits now identity).2 := by
  unfold claim
  cases system.state.claim limits now identity with
  | mk answer state => cases answer <;> rfl

/-- **Only its owner touches an entry in progress.** -/
theorem step_keeps_owned (sound : system.state.Sound limits) (event : Event) {key : String}
    {token : Nat} (found : system.state.entries.lookup key = some entry)
    (owned : entry.ownerToken = some token) (other : event.actor ≠ some ⟨key, token⟩) :
    (system.step limits event).state.entries.lookup key = some entry := by
  have acts : ∀ owner call, OwnerCall limits owner call → owner ≠ ⟨key, token⟩ →
      (system.act owner call).state.entries.lookup key = some entry := by
    intro owner call calls different
    rcases act_state system owner call with same | acted
    · rw [same]
      exact found
    · rw [acted]
      exact calls.keeps _ _ _ _ sound found owned different
  have different : ∀ owner, event.actor = some owner → owner ≠ ⟨key, token⟩ :=
    fun owner actor same => other (actor.trans (congrArg some same))
  cases event with
  | claim now identity =>
    show (system.claim limits now identity).state.entries.lookup key = some entry
    rw [claim_state]
    exact State.claim_keeps_owned sound now identity found owned
  | complete owner now response =>
    exact acts owner _ (complete_call limits owner now response) (different owner rfl)
  | nonreplayable owner now reason =>
    exact acts owner _ (nonreplayable_call limits owner now reason) (different owner rfl)
  | release owner => exact acts owner _ (release_call limits owner) (different owner rfl)
  | rehash entries =>
    show (if _ then _ else _ : System).state.entries.lookup key = some entry
    split
    · rename_i shuffled
      exact (AList.perm_lookup shuffled).trans found
    · exact found

theorem rehash_sound {state : State} (sound : state.Sound limits) {entries : Table String Entry}
    (shuffled : entries.entries.Perm state.entries.entries) :
    ({ state with entries } : State).Sound limits where
  accounted := sound.accounted.trans ((shuffled.map _).map _).sum_eq.symm
  bounded := sound.bounded
  fewer := shuffled.length_eq.trans_le sound.fewer
  formed key entry found := sound.formed key entry ((AList.perm_lookup shuffled).symm.trans found)

theorem step_state_sound (sound : system.state.Sound limits) (event : Event) :
    (system.step limits event).state.Sound limits := by
  have acts : ∀ owner call, OwnerCall limits owner call → (system.act owner call).state.Sound limits := by
    intro owner call calls
    rcases act_state system owner call with same | acted
    · rw [same]
      exact sound
    · rw [acted]
      exact calls.sound _ sound
  cases event with
  | claim now identity =>
    show (system.claim limits now identity).state.Sound limits
    rw [claim_state]
    exact State.claim_sound sound now identity
  | complete owner now response => exact acts owner _ (complete_call limits owner now response)
  | nonreplayable owner now reason => exact acts owner _ (nonreplayable_call limits owner now reason)
  | release owner => exact acts owner _ (release_call limits owner)
  | rehash entries =>
    show (if _ then _ else _ : System).state.Sound limits
    split
    · rename_i shuffled
      exact rehash_sound sound shuffled
    · exact sound

theorem held_after (sound : system.Sound limits) (event : Event) {owner : Owner}
    (member : owner ∈ system.owners) (other : event.actor ≠ some owner) :
    (system.step limits event).state.holds owner = true := by
  obtain ⟨entry, found, owned⟩ := State.holds_iff.mp (sound.held owner member)
  exact State.holds_iff.mpr ⟨entry, step_keeps_owned sound.state event found owned other, owned⟩

/-- A round of `claim` keeps the invariant: a new owner has a key that no other owner has. -/
theorem claim_sound (sound : system.Sound limits) (now : Nat) (identity : RequestIdentity) :
    (system.claim limits now identity).Sound limits := by
  have state : (system.claim limits now identity).state.Sound limits :=
    step_state_sound sound.state (.claim now identity)
  have held : ∀ owner ∈ system.owners, (system.claim limits now identity).state.holds owner = true :=
    fun owner member => held_after sound (.claim now identity) member nofun
  rcases State.claim_cases limits now identity system.state with
    ⟨entry, -, outcome⟩ | ⟨absent, roomy, shrunk, outcome | ⟨room, outcome⟩⟩
  · have answers : ∀ owner, entry.answer identity.requestHash ≠ .owner owner := by
      intro owner
      unfold Entry.answer
      repeat' split
      all_goals exact nofun
    unfold claim at state held ⊢
    rw [outcome] at state held ⊢
    cases answer : entry.answer identity.requestHash with
    | owner owner => exact absurd answer (answers owner)
    | response response =>
      rw [answer] at state held
      exact ⟨state, held, sound.single⟩
    | wait =>
      rw [answer] at state held
      exact ⟨state, held, sound.single⟩
  · unfold claim at state held ⊢
    rw [outcome] at state held ⊢
    exact ⟨state, held, sound.single⟩
  · unfold claim at state held ⊢
    rw [outcome] at state held ⊢
    refine ⟨state, fun owner member => ?_, ?_⟩
    · rcases List.mem_cons.mp member with rfl | old
      · exact State.holds_iff.mpr ⟨_, AList.lookup_insert _, rfl⟩
      · exact held owner old
    · -- an owner with this key would have kept its entry
      refine List.nodup_cons.mpr ⟨fun member => ?_, sound.single⟩
      obtain ⟨owner, old, same⟩ := List.mem_map.mp member
      obtain ⟨entry, found, owned⟩ := State.holds_iff.mp (sound.held owner old)
      have stays := (State.pruneExpired_shrunk now system.state).stays found
        (sound.state.spares_owned now _ entry _ found owned)
      rw [same] at stays
      exact absurd (absent.symm.trans stays) nofun

theorem act_sound (sound : system.Sound limits) {owner : Owner}
    {call : State → State.Completion × State} (calls : OwnerCall limits owner call) :
    (system.act owner call).Sound limits := by
  have state := calls.sound _ sound.state
  have held : ∀ other ∈ system.owners, other ≠ owner → (call system.state).2.holds other = true := by
    intro other member different
    obtain ⟨entry, found, owned⟩ := State.holds_iff.mp (sound.held other member)
    exact State.holds_iff.mpr
      ⟨entry, calls.keeps _ _ _ _ sound.state found owned different.symm, owned⟩
  rcases act_cases system owner call with ⟨-, same⟩ | ⟨member, ⟨noRoom, acted⟩ | acted⟩
  · rw [same]
    exact sound
  · rw [acted]
    refine ⟨state, fun other here => ?_, sound.single⟩
    by_cases same : other = owner
    · subst same
      exact calls.noRoom _ sound.state noRoom (sound.held other member)
    · exact held other here same
  · rw [acted]
    refine ⟨state, fun other here => ?_, sound.single.sublist (List.filter_sublist.map _)⟩
    obtain ⟨old, different⟩ := List.mem_filter.mp here
    exact held other old (by simpa using different)

/-- **One section keeps the invariant.** -/
theorem step_sound (sound : system.Sound limits) (event : Event) :
    (system.step limits event).Sound limits := by
  cases event with
  | claim now identity => exact claim_sound sound now identity
  | complete owner now response => exact act_sound sound (complete_call limits owner now response)
  | nonreplayable owner now reason => exact act_sound sound (nonreplayable_call limits owner now reason)
  | release owner => exact act_sound sound (release_call limits owner)
  | rehash entries =>
    have state := step_state_sound sound.state (.rehash entries)
    have held : ∀ owner ∈ system.owners,
        (system.step limits (.rehash entries)).state.holds owner = true :=
      fun owner member => held_after sound (.rehash entries) member nofun
    by_cases shuffled : entries.entries.Perm system.state.entries.entries
    · have outcome : system.step limits (.rehash entries) =
          { system with state := { system.state with entries } } := if_pos shuffled
      rw [outcome] at state held ⊢
      exact ⟨state, held, sound.single⟩
    · have outcome : system.step limits (.rehash entries) = system := if_neg shuffled
      rw [outcome]
      exact sound

/-- **Every run keeps the invariant.** -/
theorem run_sound (limits : Limits) (events : List Event) : (run limits events).Sound limits := by
  have start : fresh.Sound limits := ⟨State.sound_fresh limits, nofun, List.nodup_nil⟩
  unfold run
  induction events using List.reverseRecOn with
  | nil => exact start
  | append_singleton before event ih =>
    rw [List.foldl_append]
    exact step_sound ih event

/-- An operation of an owner whose token is not that of the entry: there is no such owner any more. -/
theorem step_stale (sound : system.Sound limits) {event : Event} {owner : Owner}
    (actor : event.actor = some owner) (stale : system.state.holds owner = false) :
    system.step limits event = system := by
  have gone : owner ∉ system.owners :=
    fun member => absurd ((sound.held owner member).symm.trans stale) Bool.noConfusion
  cases event with
  | claim now identity => cases actor
  | complete owner now response =>
    cases actor
    exact if_neg gone
  | nonreplayable owner now reason =>
    cases actor
    exact if_neg gone
  | release owner =>
    cases actor
    exact if_neg gone
  | rehash entries => cases actor

/-- **The coordinator's accounts and owners**, after every run: the stored bytes are those of the cached
responses and within their limit, as is the number of entries; an entry has an owner exactly while it
has neither a response nor a reason; nobody else evicts it or lets it expire; and a stale owner changes
nothing. -/
theorem coordinator_sound (limits : Limits) (events : List Event) :
    let system := run limits events
    system.state.storedBytes = weight Entry.bytes system.state.entries ∧
      system.state.storedBytes ≤ limits.maxStoredBytes ∧
      size system.state.entries ≤ limits.maxEntries ∧
      (∀ key entry, system.state.entries.lookup key = some entry →
        (entry.ownerToken.isSome ↔ entry.response = none ∧ entry.nonreplayableReason = none)) ∧
      (∀ event key entry token, system.state.entries.lookup key = some entry →
        entry.ownerToken = some token → event.actor ≠ some ⟨key, token⟩ →
        (system.step limits event).state.entries.lookup key = some entry) ∧
      (∀ event owner, event.actor = some owner → system.state.holds owner = false →
        system.step limits event = system) ∧
      (∀ owner now reason response, system.state.holds owner = false →
        system.state.nonreplayableInner limits now reason owner = system.state ∧
        system.state.releaseInner owner = system.state ∧
        ((system.state.complete limits now response owner).2 = system.state ∨
          (system.state.complete limits now response owner).2 = system.state.pruneExpired now)) := by
  have sound := run_sound limits events
  refine ⟨sound.state.accounted, sound.state.bounded, sound.state.fewer, ?_, ?_, ?_, ?_⟩
  · exact fun key entry found => (sound.state.formed key entry found).owned_iff
  · exact fun event key entry token found owned other =>
      step_keeps_owned sound.state event found owned other
  · exact fun event owner actor stale => step_stale sound actor stale
  · exact fun owner now reason response stale => State.stale_unchanged stale now reason response

end System

end UniApi.Front.Idempotency
