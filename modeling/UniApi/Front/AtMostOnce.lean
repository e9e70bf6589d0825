/-
**At most one execution under an idempotency key.**

While an owner is at work, it is the only one under its key, and every claim of the same request waits.
Once it has settled, its entry answers every claim of the same request, until it expires or is evicted.

* `step_settled`: one section leaves a settled entry as it is, or removes it for a stated reason;
* `run_settled`: so does a run;
* `at_most_once`: owners, conflicts and replays in every run.
-/

import UniApi.Front.Idempotency

namespace UniApi.Front.Idempotency

open UniApi.Lib UniApi.Lib.Table

/-! ### Why an entry goes -/

/-- The section removes a settled entry: it has expired, or there is no room for what the section adds. -/
def Event.Removes (limits : Limits) (state : State) (entry : Entry) : Event → Prop
  | .claim now identity =>
    entry.expired now = true ∨
      ((state.pruneExpired now).entries.lookup identity.recordKey = none ∧
        limits.maxEntries ≤ size (state.pruneExpired now).entries)
  | .complete _ now response =>
    entry.expired now = true ∨
      limits.maxStoredBytes < (state.pruneExpired now).storedBytes + response.bytes
  | _ => False

/-- What a settled entry answers its own request with. -/
def Entry.settledResponse (entry : Entry) : Response :=
  match entry.response with
  | some response => replayResponse response
  | none => executedNonreplayable

theorem Entry.Settled.answer {entry : Entry} (settled : entry.Settled) :
    entry.answer entry.requestHash = .response entry.settledResponse := by
  unfold Entry.answer settledResponse
  rw [if_neg (not_not_intro rfl)]
  rcases settled.result with ⟨isSome, -⟩ | ⟨none, reason⟩
  · obtain ⟨response, here⟩ := Option.isSome_iff_exists.mp isSome
    rw [here]
  · rw [none]
    exact if_pos reason

namespace State

variable {limits : Limits} {state : State} {owner : Owner} {key : String} {entry : Entry}

/-- The row of an entry without owner has another key than that of an owner at work. -/
theorem key_ne_of_free (held : state.holds owner = true) (found : state.entries.lookup key = some entry)
    (free : entry.ownerToken = none) : key ≠ owner.recordKey := by
  rintro rfl
  obtain ⟨own, here, same⟩ := holds_iff.mp held
  cases found.symm.trans here
  exact absurd (free.symm.trans same) nofun

variable (limits) in
theorem claim_settled (found : state.entries.lookup key = some entry) (now : Nat)
    (identity : RequestIdentity) :
    (state.claim limits now identity).2.entries.lookup key = some entry ∨
      (Event.claim now identity).Removes limits state entry := by
  by_cases expired : entry.expired now = true
  · exact Or.inr (Or.inl expired)
  have stays := (pruneExpired_shrunk now state).stays found expired
  rcases claim_cases limits now identity state with
    ⟨other, -, outcome⟩ | ⟨absent, roomy, shrunk, outcome | ⟨room, outcome⟩⟩
  · rw [outcome]
    exact Or.inl stays
  · rw [outcome]
    exact (shrunk.kept key entry stays).imp id fun ⟨_, gone⟩ => Or.inr ⟨absent, gone.2⟩
  · rw [outcome]
    refine (shrunk.kept key entry stays).imp (fun kept => ?_) fun ⟨_, gone⟩ => Or.inr ⟨absent, gone.2⟩
    have different : key ≠ identity.recordKey := by
      rintro rfl
      exact absurd (absent.symm.trans stays) nofun
    exact (lookup_insert_of_ne different).trans kept

theorem nonreplayableInner_settled (found : state.entries.lookup key = some entry)
    (free : entry.ownerToken = none) (now : Nat) (reason : String) :
    (state.nonreplayableInner limits now reason owner).entries.lookup key = some entry := by
  unfold nonreplayableInner
  split
  · rename_i held
    exact (changeEntry_lookup_of_ne _ (key_ne_of_free held found free)).trans found
  · exact found

theorem releaseInner_settled (found : state.entries.lookup key = some entry)
    (free : entry.ownerToken = none) :
    (state.releaseInner owner).entries.lookup key = some entry := by
  unfold releaseInner
  split
  · rename_i held
    exact (lookup_erase_of_ne (key_ne_of_free held found free)).trans found
  · exact found

theorem complete_settled (found : state.entries.lookup key = some entry)
    (free : entry.ownerToken = none) (now : Nat) (response : CachedResponse) :
    (state.complete limits now response owner).2.entries.lookup key = some entry ∨
      (Event.complete owner now response).Removes limits state entry := by
  by_cases expired : entry.expired now = true
  · exact Or.inr (Or.inl expired)
  have stays := (pruneExpired_shrunk now state).stays found expired
  unfold complete
  dsimp only
  split
  · exact Or.inl (releaseInner_settled found free)
  split
  · exact Or.inl (nonreplayableInner_settled found free now _)
  · rcases storeResponse_cases limits now
      { response with headers := Headers.remove statusHeader response.headers } owner state with
      ⟨-, outcome⟩ | ⟨held, roomy, shrunk, outcome | ⟨-, outcome⟩⟩
    · rw [outcome]
      exact Or.inl stays
    · rw [outcome]
      exact (shrunk.kept key entry stays).imp id fun ⟨_, gone⟩ => Or.inr gone.2.2
    · rw [outcome]
      refine (shrunk.kept key entry stays).imp (fun kept => ?_) fun ⟨_, gone⟩ => Or.inr gone.2.2
      exact (changeEntry_lookup_of_ne _ (key_ne_of_free held stays free)).trans kept

/-- **A settled entry answers its request.** -/
theorem claim_answered (found : state.entries.lookup key = some entry) (settled : entry.Settled)
    {now : Nat} (fresh : entry.expired now = false) :
    state.claim limits now ⟨key, entry.requestHash⟩ =
      (.response entry.settledResponse, state.pruneExpired now) := by
  have stays := (pruneExpired_shrunk now state).stays found (by rw [fresh]; exact Bool.false_ne_true)
  simp only [claim, stays, settled.answer]

/-- **Another request under the key is refused.** -/
theorem claim_conflict {now : Nat} {identity : RequestIdentity}
    (found : (state.pruneExpired now).entries.lookup identity.recordKey = some entry)
    (other : entry.requestHash ≠ identity.requestHash) :
    state.claim limits now identity = (.response conflict, state.pruneExpired now) := by
  simp only [claim, found, Entry.answer, if_pos other]

theorem changeEntry_lookup (found : state.entries.lookup key = some entry) (change : Entry → Entry) :
    (state.changeEntry key change).entries.lookup key = some (change entry) := by
  rw [changeEntry_entries found]
  exact lookup_replace found _

/-- **An entry is marked** as not replayable. -/
theorem nonreplayableInner_marks (sound : state.Sound limits)
    (found : state.entries.lookup owner.recordKey = some entry)
    (owned : entry.ownerToken = some owner.token) (now : Nat) (reason : String) :
    ∃ marked, (state.nonreplayableInner limits now reason owner).entries.lookup owner.recordKey =
        some marked ∧ marked.Settled ∧ marked.requestHash = entry.requestHash ∧
      marked.nonreplayableReason = some reason := by
  have progress := (sound.formed _ _ found).inProgress owned
  rw [nonreplayableInner, if_pos (holds_iff.mpr ⟨entry, found, owned⟩)]
  exact ⟨_, changeEntry_lookup found _, ⟨rfl, Or.inr ⟨progress.response, rfl⟩, rfl⟩, rfl, rfl⟩

/-- **The section of `complete` stores the response**, or finds no room for it. -/
theorem storeResponse_stores (sound : state.Sound limits)
    (found : state.entries.lookup owner.recordKey = some entry)
    (owned : entry.ownerToken = some owner.token) (now : Nat) (response : CachedResponse) :
    (state.storeResponse limits now response owner).1 = .noRoom ∨
      ∃ stored,
        (state.storeResponse limits now response owner).2.entries.lookup owner.recordKey = some stored ∧
        stored.Settled ∧ stored.requestHash = entry.requestHash ∧ stored.response = some response := by
  have progress := (sound.formed _ _ found).inProgress owned
  have stays := (pruneExpired_shrunk now state).stays found
    (sound.spares_owned now _ entry _ found owned)
  rcases storeResponse_cases limits now response owner state with
    ⟨stale, -⟩ | ⟨-, roomy, shrunk, outcome | ⟨-, outcome⟩⟩
  · exact absurd ((holds_iff.mpr ⟨entry, stays, owned⟩).symm.trans stale) Bool.noConfusion
  · rw [outcome]
    exact Or.inl rfl
  · have kept := shrunk.stays stays fun gone => gone.1 rfl
    rw [outcome]
    exact Or.inr ⟨_, changeEntry_lookup kept _, ⟨rfl, Or.inl ⟨rfl, progress.reason⟩, rfl⟩, rfl, rfl⟩

/-- A response that is small enough is stored as it is, if there is room for it. -/
theorem complete_stores_small (sound : state.Sound limits)
    (found : state.entries.lookup owner.recordKey = some entry)
    (owned : entry.ownerToken = some owner.token) (now : Nat) {response : CachedResponse}
    (cacheable : cacheableStatus response.status = true)
    (small : response.bytes ≤ limits.maxResponseBytes) :
    (state.complete limits now response owner).1 = .noRoom ∨
      ∃ stored, (state.complete limits now response owner).2.entries.lookup owner.recordKey = some stored ∧
        stored.Settled ∧ stored.requestHash = entry.requestHash ∧
        stored.response =
          some { response with headers := Headers.remove statusHeader response.headers } := by
  unfold complete
  simp only [cacheable, Bool.not_true, Bool.false_eq_true, if_false]
  rw [if_neg (Nat.not_lt.mpr small)]
  exact storeResponse_stores sound found owned now _

/-- **A response is stored** as the owner gave it, or is marked as too large, or finds no room. -/
theorem complete_stores (sound : state.Sound limits)
    (found : state.entries.lookup owner.recordKey = some entry)
    (owned : entry.ownerToken = some owner.token) (now : Nat) {response : CachedResponse}
    (cacheable : cacheableStatus response.status = true) :
    (state.complete limits now response owner).1 = .noRoom ∨
      ∃ stored, (state.complete limits now response owner).2.entries.lookup owner.recordKey = some stored ∧
        stored.Settled ∧ stored.requestHash = entry.requestHash ∧
        (stored.response =
            some { response with headers := Headers.remove statusHeader response.headers } ∨
          stored.nonreplayableReason = some "response_too_large") := by
  by_cases small : response.bytes ≤ limits.maxResponseBytes
  · refine (complete_stores_small sound found owned now cacheable small).imp id ?_
    rintro ⟨stored, there, settled, same, response⟩
    exact ⟨stored, there, settled, same, Or.inl response⟩
  · obtain ⟨marked, there, settled, same, reason⟩ :=
      nonreplayableInner_marks sound found owned now "response_too_large"
    unfold complete
    simp only [cacheable, Bool.not_true, Bool.false_eq_true, if_false]
    rw [if_pos (Nat.lt_of_not_le small)]
    exact Or.inr ⟨marked, there, settled, same, Or.inr reason⟩

end State

/-! ### Runs -/

namespace System

variable {limits : Limits} {system : System} {key : String} {entry : Entry}

variable (limits) in
/-- **One section leaves a settled entry as it is**, or removes it for a reason. -/
theorem step_settled (found : system.state.entries.lookup key = some entry) (settled : entry.Settled)
    (event : Event) :
    (system.step limits event).state.entries.lookup key = some entry ∨
      event.Removes limits system.state entry := by
  have acts : ∀ owner call, (call system.state).2.entries.lookup key = some entry →
      (system.act owner call).state.entries.lookup key = some entry := by
    intro owner call kept
    rcases act_state system owner call with same | acted
    · rw [same]
      exact found
    · rw [acted]
      exact kept
  cases event with
  | claim now identity =>
    have kept := State.claim_settled limits found now identity
    rw [← claim_state] at kept
    exact kept
  | complete owner now response =>
    exact (State.complete_settled found settled.owner now response).imp (acts owner _) id
  | nonreplayable owner now reason =>
    exact Or.inl (acts owner _ (State.nonreplayableInner_settled found settled.owner now reason))
  | release owner => exact Or.inl (acts owner _ (State.releaseInner_settled found settled.owner))
  | rehash entries =>
    refine Or.inl ?_
    show (if _ then _ else _ : System).state.entries.lookup key = some entry
    split
    · rename_i shuffled
      exact (AList.perm_lookup shuffled).trans found
    · exact found

theorem act_of_mem {owner : Owner} (member : owner ∈ system.owners)
    (call : State → State.Completion × State) :
    (system.act owner call).state = (call system.state).2 := by
  rcases act_cases system owner call with ⟨absent, -⟩ | ⟨-, ⟨-, acted⟩ | acted⟩
  · exact absurd member absent
  · rw [acted]
  · rw [acted]
    rfl

/-- **A small response is stored as it is**, if there is room for it. -/
theorem complete_small {events : List Event} {owner : Owner}
    (working : owner ∈ (run limits events).owners) (now : Nat) {response : CachedResponse}
    (cacheable : State.cacheableStatus response.status = true)
    (small : response.bytes ≤ limits.maxResponseBytes) :
    ((run limits events).state.complete limits now response owner).1 = .noRoom ∨
      ∃ stored,
        ((run limits events).step limits (.complete owner now response)).state.entries.lookup
          owner.recordKey = some stored ∧
        stored.Settled ∧
        stored.response =
          some { response with headers := Headers.remove statusHeader response.headers } := by
  have sound := run_sound limits events
  obtain ⟨entry, found, owned⟩ := State.holds_iff.mp (sound.held owner working)
  refine (State.complete_stores_small sound.state found owned now cacheable small).imp id ?_
  rintro ⟨stored, there, settled, -, rest⟩
  refine ⟨stored, ?_, settled, rest⟩
  show (act owner _ _).state.entries.lookup owner.recordKey = some stored
  rw [act_of_mem working]
  exact there

variable (limits) in
/-- **A run leaves a settled entry as it is**, or removes it for a reason. -/
theorem run_settled (found : system.state.entries.lookup key = some entry) (settled : entry.Settled)
    (later : List Event) :
    (later.foldl (step limits) system).state.entries.lookup key = some entry ∨
      ∃ before event after, later = before ++ event :: after ∧
        (before.foldl (step limits) system).state.entries.lookup key = some entry ∧
        event.Removes limits (before.foldl (step limits) system).state entry := by
  induction later generalizing system with
  | nil => exact Or.inl found
  | cons event rest ih =>
    rcases step_settled limits found settled event with kept | removes
    · rcases ih kept with stays | ⟨before, other, after, split, there, removes⟩
      · exact Or.inl stays
      · exact Or.inr ⟨event :: before, other, after, by rw [split, List.cons_append], there, removes⟩
    · exact Or.inr ⟨[], event, rest, rfl, found, removes⟩

theorem claim_answered_owners (found : system.state.entries.lookup key = some entry)
    (settled : entry.Settled) {now : Nat} (fresh : entry.expired now = false) :
    (system.step limits (.claim now ⟨key, entry.requestHash⟩)).owners = system.owners := by
  show (system.claim limits now _).owners = _
  rw [claim, State.claim_answered found settled fresh]

/-- **At most one execution under a key**, in every run: no two owners at work share a key; a request
with another hash is refused; an owner that completes with a cacheable status leaves its response, or
the mark that it cannot be replayed, unless it finds no room and is still at work; and from then on the
entry answers every claim of its request, and makes nobody an owner, until it expires or is evicted. -/
theorem at_most_once (limits : Limits) (events : List Event) :
    let system := run limits events
    (system.owners.map Owner.recordKey).Nodup ∧
      (∀ now identity entry,
        (system.state.pruneExpired now).entries.lookup identity.recordKey = some entry →
        entry.requestHash ≠ identity.requestHash →
        system.state.claim limits now identity =
          (.response conflict, system.state.pruneExpired now)) ∧
      (∀ owner ∈ system.owners, ∃ entry,
        system.state.entries.lookup owner.recordKey = some entry ∧
        (∀ now response, State.cacheableStatus response.status = true →
          (system.state.complete limits now response owner).1 = .noRoom ∨
          ∃ stored, (system.step limits (.complete owner now response)).state.entries.lookup
              owner.recordKey = some stored ∧
            stored.Settled ∧ stored.requestHash = entry.requestHash ∧
            (stored.response =
                some { response with headers := Headers.remove statusHeader response.headers } ∨
              stored.nonreplayableReason = some "response_too_large")) ∧
        (∀ now reason, ∃ marked,
          (system.step limits (.nonreplayable owner now reason)).state.entries.lookup
              owner.recordKey = some marked ∧
            marked.Settled ∧ marked.requestHash = entry.requestHash ∧
            marked.nonreplayableReason = some reason)) ∧
      (∀ key entry, system.state.entries.lookup key = some entry → entry.Settled →
        ∀ later, let system := later.foldl (step limits) system
          (system.state.entries.lookup key = some entry ∧
            ∀ now, entry.expired now = false →
              system.state.claim limits now ⟨key, entry.requestHash⟩ =
                (.response entry.settledResponse, system.state.pruneExpired now) ∧
              (system.step limits (.claim now ⟨key, entry.requestHash⟩)).owners = system.owners) ∨
          ∃ before event after, later = before ++ event :: after ∧
            event.Removes limits (run limits (events ++ before)).state entry) := by
  have sound := run_sound limits events
  refine ⟨sound.single, fun now identity entry found other => State.claim_conflict found other,
    fun owner member => ?_, fun key entry found settled later => ?_⟩
  · obtain ⟨entry, found, owned⟩ := State.holds_iff.mp (sound.held owner member)
    refine ⟨entry, found, fun now response cacheable => ?_, fun now reason => ?_⟩
    · refine (State.complete_stores sound.state found owned now cacheable).imp id ?_
      rintro ⟨stored, there, rest⟩
      refine ⟨stored, ?_, rest⟩
      show (act owner _ _).state.entries.lookup owner.recordKey = some stored
      rw [act_of_mem member]
      exact there
    · obtain ⟨marked, there, rest⟩ :=
        State.nonreplayableInner_marks sound.state found owned now reason
      refine ⟨marked, ?_, rest⟩
      show (act owner _ _).state.entries.lookup owner.recordKey = some marked
      rw [act, if_pos member]
      exact there
  · rcases run_settled limits found settled later with
      stays | ⟨before, event, after, split, there, removes⟩
    · exact Or.inl ⟨stays, fun now fresh =>
        ⟨State.claim_answered stays settled fresh, claim_answered_owners stays settled fresh⟩⟩
    · refine Or.inr ⟨before, event, after, split, ?_⟩
      rw [run, List.foldl_append]
      exact removes

end System

end UniApi.Front.Idempotency
