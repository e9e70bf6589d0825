/-
**`CodexOAuthTokenManager`: refresh tokens that work once.**

Tasks ask for access tokens of keys. A task reads the refresh token of its key from the store, waits for
the lock of the key, and then presents the token of the cache entry, or else the one that it has read.

* `moves_exclusive`: a key's lock is held by the task whose request is in flight;
* `step_kept`: the last token of a key stays where the next request takes it from;
* `tokens_kept`: in a run whose steps are safe no request presents an older token.
-/

import Mathlib.Data.Option.Basic
import Mathlib.Logic.Function.Basic
import UniApi.Lib.Utf8

namespace UniApi.Auth

open UniApi.Lib

/-! ### Tokens -/

/-- A refresh token: one from the configuration or the file of an earlier process, or one that the server
has returned, by its number for the key. -/
inductive Token where
  | known (text : Bytes)
  | issued (number : Nat)
  deriving DecidableEq

/-- Which of the tokens that the server has returned a token is. -/
def Token.number : Token → Nat
  | .known _ => 0
  | .issued number => number

section Manager

variable {K : Type} [DecidableEq K]

/-! ### The store -/

/-- `CodexRefreshTokenStore`, and its file. -/
structure Store (K : Type) where
  tokens : K → Option Token
  loaded : Bool
  file : K → Option Token

/-- `ensure_loaded`. A file that cannot be read adds nothing. -/
def Store.ensureLoaded (store : Store K) (readable : Bool) : Store K :=
  if store.loaded then store
  else if readable then
    { store with tokens := fun key => (store.file key).or (store.tokens key), loaded := true }
  else { store with loaded := true }

/-- `reload`. -/
def Store.reload (store : Store K) (readable : Bool) : Store K :=
  { store with
    tokens := fun key => if readable then store.file key else none
    loaded := true }

/-- `persist`. The file is replaced as a whole, or not at all. -/
def Store.persist (store : Store K) (key : K) (token : Token) (readable writable : Bool) : Store K :=
  let store := store.ensureLoaded readable
  if store.tokens key = some token then store
  else
    let tokens := Function.update store.tokens key (some token)
    { store with tokens := tokens, file := if writable then tokens else store.file }

/-! ### Tasks -/

/-- What `refresh_access_token` gives: an access token and perhaps a new refresh token, an error that
says `refresh_token_reused`, or any other error. -/
inductive Answer where
  | refreshed (token : Option Token)
  | reused
  | failed

/-- Where a call of `get_access_token` waits. -/
inductive Task (K : Type) where
  | idle
  /-- For the lock, with the token that was read. -/
  | waiting (key : K) (token : Token)
  /-- For the server, the second time if a token was reused. -/
  | requesting (key : K) (presented : Token) (again : Bool)
  /-- For `refresh_access_token`, which has its answer. -/
  | answered (key : K) (presented : Token) (again : Bool) (answer : Answer)

/-- A refresh request: its token, and how many tokens the server had returned for the key. -/
structure Request (K : Type) where
  key : K
  presented : Token
  issued : Nat

/-- The manager, its store, its tasks, and what is kept for the proofs: how many tokens the server has
returned, and the requests. -/
structure System (K : Type) where
  cache : K → Option Token
  store : Store K
  holder : K → Option Nat
  tasks : Nat → Task K
  issued : K → Nat
  requests : List (Request K)

/-- What happens between two suspension points. -/
inductive Event (K : Type) where
  | call (task : Nat) (key : K) (readable : Bool)
  /-- A task takes the lock; `valid` says that an entry's access token is. -/
  | acquire (task : Nat) (valid : Bool)
  /-- The server answers with success, and perhaps with a new refresh token, or with an error. -/
  | refresh (task : Nat) (rotated : Bool)
  | refuse (task : Nat) (reused : Bool)
  /-- `refresh_access_token` returns or raises. -/
  | finish (task : Nat) (readable writable : Bool)
  | cancel (task : Nat)
  | clear (key : K)

namespace System

/-- A task is at another point. -/
def move (system : System K) (task : Nat) (state : Task K) : System K :=
  { system with tasks := Function.update system.tasks task state }

/-- A task ends with the lock of its key. -/
def leave (system : System K) (task : Nat) (key : K) : System K :=
  { system.move task .idle with holder := Function.update system.holder key none }

/-- A task sends a refresh request. -/
def request (system : System K) (task : Nat) (key : K) (presented : Token) (again : Bool) : System K :=
  { system.move task (.requesting key presented again) with
    holder := Function.update system.holder key (some task)
    requests := system.requests ++ [⟨key, presented, system.issued key⟩] }

/-- `get_access_token`, to the lock. -/
def call (config : K → Bytes) (system : System K) (task : Nat) (key : K) (readable : Bool) : System K :=
  let store := system.store.ensureLoaded readable
  { system.move task (.waiting key ((store.tokens key).getD (.known (config key)))) with
    store := store }

/-- `get_access_token`, from the lock. -/
def acquire (system : System K) (task : Nat) (key : K) (token : Token) (valid : Bool) : System K :=
  if valid && (system.cache key).isSome then system.move task .idle
  else system.request task key ((system.cache key).getD token) false

/-- `get_access_token`, from `refresh_access_token`. -/
def finish (system : System K) (task : Nat) (key : K) (presented : Token) (again : Bool)
    (answer : Answer) (readable writable : Bool) : System K :=
  match answer with
  | .refreshed token =>
    let updated := token.getD presented
    { system.leave task key with
      cache := Function.update system.cache key (some updated)
      store := system.store.persist key updated readable writable }
  | .reused =>
    if again then system.leave task key
    else
      let system := { system with store := system.store.reload readable }
      match system.store.tokens key with
      | some latest =>
        if latest = presented then system.leave task key else system.request task key latest true
      | none => system.leave task key
  | .failed => system.leave task key

/-- A step; `none` where the event cannot happen. -/
def step (config : K → Bytes) (system : System K) : Event K → Option (System K)
  | .call task key readable =>
    match system.tasks task with
    | .idle => some (system.call config task key readable)
    | _ => none
  | .acquire task valid =>
    match system.tasks task with
    | .waiting key token =>
      if system.holder key = none then some (system.acquire task key token valid) else none
    | _ => none
  | .refresh task rotated =>
    match system.tasks task with
    | .requesting key presented again =>
      let number := system.issued key + 1
      if rotated then
        some { system.move task (.answered key presented again (.refreshed (some (.issued number)))) with
          issued := Function.update system.issued key number }
      else some (system.move task (.answered key presented again (.refreshed none)))
    | _ => none
  | .refuse task reused =>
    match system.tasks task with
    | .requesting key presented again =>
      some (system.move task (.answered key presented again (if reused then .reused else .failed)))
    | _ => none
  | .finish task readable writable =>
    match system.tasks task with
    | .answered key presented again answer =>
      some (system.finish task key presented again answer readable writable)
    | _ => none
  | .cancel task =>
    match system.tasks task with
    | .waiting _ _ => some (system.move task .idle)
    | .requesting key _ _ => some (system.leave task key)
    | .answered key _ _ _ => some (system.leave task key)
    | .idle => none
  | .clear key => some { system with cache := Function.update system.cache key none }

/-- A run. -/
def run (config : K → Bytes) (system : System K) : List (Event K) → Option (System K)
  | [] => some system
  | event :: rest => (system.step config event).bind fun next => next.run config rest

/-- A process that starts with a file. -/
def start (file : K → Option Bytes) : System K where
  cache _ := none
  store := ⟨fun _ => none, false, fun key => (file key).map .known⟩
  holder _ := none
  tasks _ := .idle
  issued _ := 0
  requests := []

/-- A task has a request of a key in flight. -/
def InFlight (system : System K) (task : Nat) (key : K) : Prop :=
  ∃ presented again, system.tasks task = .requesting key presented again ∨
    ∃ answer, system.tasks task = .answered key presented again answer

/-! ### Safe steps -/

/-- A task has a new token of a key that is not stored yet. -/
def Pending (system : System K) (key : K) : Prop :=
  ∃ task presented again token,
    system.tasks task = .answered key presented again (.refreshed (some token))

/-- The last token that the server has returned for a key, if it has returned any. -/
def Fresh (system : System K) (key : K) (token : Token) : Prop :=
  system.issued key = 0 ∨ token = .issued (system.issued key)

/-- **A step that loses no token.** An entry is cleared when the store has the last token of its key and
no waiting task has read another, or while a new token is being stored. A task that has a new token is
not cancelled before the token is stored. After a forced reload the store has the last token of each key
whose cache entry has not; and for the key itself the reload gives no other. -/
def Safe (system : System K) : Event K → Prop
  | .clear key =>
    system.cache key = none ∨ system.issued key = 0 ∨ system.Pending key ∨
      system.store.tokens key = some (.issued (system.issued key)) ∧
        ∀ task token, system.tasks task = .waiting key token → token = .issued (system.issued key)
  | .cancel task => ∀ key presented again token,
      system.tasks task ≠ .answered key presented again (.refreshed (some token))
  | .finish task readable _ => ∀ key presented,
      system.tasks task = .answered key presented false .reused → ∀ other,
        system.issued other = 0 ∨ system.Pending other ∨
          (system.store.reload readable).tokens other = some (.issued (system.issued other)) ∨
          system.cache other = some (.issued (system.issued other)) ∧
            (other = key → (system.store.reload readable).tokens other = none)
  | _ => True

/-- A run of safe steps. -/
def SafeRun (config : K → Bytes) (system : System K) : List (Event K) → Prop
  | [] => True
  | event :: rest => system.Safe event ∧ ∀ next, system.step config event = some next →
      next.SafeRun config rest

/-! ### Locks -/

set_option linter.unusedSectionVars false

variable {config : K → Bytes} {system next : System K}

/-- The lock of a key is held by the task whose request is in flight. -/
def Exclusive (system : System K) : Prop :=
  ∀ task key, system.InFlight task key → system.holder key = some task

@[simp] theorem move_self {task : Nat} {state : Task K} :
    (system.move task state).tasks task = state :=
  Function.update_self ..

variable {task : Nat} {presented : Token} {again : Bool} {readable writable : Bool}
  {state : Task K} {answer : Answer} {token : Token}

theorem move_of_ne {task other : Nat} (differ : other ≠ task) :
    (system.move task state).tasks other = system.tasks other :=
  Function.update_of_ne differ ..

theorem inFlight_move {task other : Nat} {key : K}
    (inFlight : (system.move task state).InFlight other key) (differ : other ≠ task) :
    system.InFlight other key := by
  simpa only [InFlight, move_of_ne differ] using inFlight

theorem not_inFlight_idle {key : K} : ¬ (system.move task .idle).InFlight task key := by
  rintro ⟨presented, again, inFlight⟩
  simp at inFlight

theorem not_inFlight_waiting {key other : K} :
    ¬ (system.move task (.waiting other token)).InFlight task key := by
  rintro ⟨presented, again, inFlight⟩
  simp at inFlight

theorem exclusive_move (exclusive : system.Exclusive)
    (grounded : ∀ key, ¬ (system.move task state).InFlight task key) :
    (system.move task state).Exclusive := by
  intro other key inFlight
  by_cases same : other = task
  · exact absurd (same ▸ inFlight) (grounded key)
  · exact exclusive other key (inFlight_move inFlight same)

theorem exclusive_leave {key : K} (exclusive : system.Exclusive)
    (held : system.InFlight task key) : (system.leave task key).Exclusive := by
  intro other otherKey inFlight
  have moved : (system.move task .idle).InFlight other otherKey := inFlight
  by_cases same : other = task
  · exact absurd (same ▸ moved) not_inFlight_idle
  · have holds := exclusive other otherKey (inFlight_move moved same)
    have differ : otherKey ≠ key := by
      rintro rfl
      rw [exclusive task otherKey held] at holds
      exact same (Option.some_injective _ holds).symm
    simpa only [leave, Function.update_of_ne differ] using holds

theorem exclusive_request {key : K} (exclusive : system.Exclusive)
    (free : system.holder key = none ∨ system.holder key = some task)
    (own : ∀ other, other ≠ key → ¬ system.InFlight task other) :
    (system.request task key presented again).Exclusive := by
  intro other otherKey inFlight
  have moved : (system.move task (.requesting key presented again)).InFlight other otherKey := inFlight
  by_cases same : other = task
  · subst same
    obtain ⟨_, _, isRequest | ⟨_, isAnswer⟩⟩ := moved
    · simp only [move_self, Task.requesting.injEq] at isRequest
      simp only [request, ← isRequest.1, Function.update_self]
    · simp at isAnswer
  · have holds := exclusive other otherKey (inFlight_move moved same)
    have differ : otherKey ≠ key := by
      rintro rfl
      rcases free with free | free
      · rw [free] at holds
        exact Option.some_ne_none _ holds.symm
      · rw [free] at holds
        exact same (Option.some_injective _ holds).symm
    simpa only [request, Function.update_of_ne differ] using holds

theorem inFlight_requesting {key : K}
    (isAt : system.tasks task = .requesting key presented again) : system.InFlight task key :=
  ⟨presented, again, Or.inl isAt⟩

theorem inFlight_answered {key : K}
    (isAt : system.tasks task = .answered key presented again answer) : system.InFlight task key :=
  ⟨presented, again, Or.inr ⟨answer, isAt⟩⟩

theorem inFlight_key {key other : K} (inFlight : system.InFlight task key)
    (otherInFlight : system.InFlight task other) : other = key := by
  obtain ⟨_, _, isAt | ⟨_, isAt⟩⟩ := inFlight <;>
    obtain ⟨_, _, otherAt | ⟨_, otherAt⟩⟩ := otherInFlight <;>
      rw [isAt] at otherAt <;> simp_all

/-- A task that has its answer is still the one that holds the lock. -/
theorem exclusive_answer {key : K} (exclusive : system.Exclusive)
    (isAt : system.tasks task = .requesting key presented again) :
    (system.move task (.answered key presented again answer)).Exclusive := by
  intro other otherKey inFlight
  by_cases same : other = task
  · subst same
    have answered : (system.move other (.answered key presented again answer)).InFlight other key :=
      inFlight_answered move_self
    have isKey : otherKey = key := inFlight_key answered inFlight
    rw [isKey]
    exact exclusive other key (inFlight_requesting isAt)
  · exact exclusive other otherKey (inFlight_move inFlight same)

theorem exclusive_acquire {key : K} {valid : Bool}
    (exclusive : system.Exclusive) (isAt : system.tasks task = .waiting key token)
    (free : system.holder key = none) : (system.acquire task key token valid).Exclusive := by
  rw [acquire]
  split
  · exact exclusive_move exclusive fun _ => not_inFlight_idle
  · refine exclusive_request exclusive (Or.inl free) fun other _ inFlight => ?_
    obtain ⟨_, _, otherAt | ⟨_, otherAt⟩⟩ := inFlight
    · simp [isAt] at otherAt
    · simp [isAt] at otherAt

theorem exclusive_finish {key : K} (exclusive : system.Exclusive)
    (isAt : system.tasks task = .answered key presented again answer) :
    (system.finish task key presented again answer readable writable).Exclusive := by
  have inFlight := inFlight_answered isAt
  have left : (system.leave task key).Exclusive := exclusive_leave exclusive inFlight
  rw [finish.eq_def]
  split
  · exact left
  · split
    · exact left
    · dsimp only
      split
      · split
        · exact left
        · have reloaded : Exclusive { system with store := system.store.reload readable } := exclusive
          refine exclusive_request reloaded (Or.inr (exclusive task key inFlight))
            fun other differ otherInFlight => ?_
          exact differ (inFlight_key inFlight otherInFlight)
      · exact left
  · exact left

/-- What a step can do, by the event and the point that the task is at. -/
inductive Moves (config : K → Bytes) (system : System K) : Event K → System K → Prop
  | call {task key readable} (isAt : system.tasks task = .idle) :
      Moves config system (.call task key readable) (system.call config task key readable)
  | acquire {task key token valid} (isAt : system.tasks task = .waiting key token)
      (free : system.holder key = none) :
      Moves config system (.acquire task valid) (system.acquire task key token valid)
  | rotate {task key presented again} (isAt : system.tasks task = .requesting key presented again) :
      Moves config system (.refresh task true)
        { system.move task (.answered key presented again
            (.refreshed (some (.issued (system.issued key + 1))))) with
          issued := Function.update system.issued key (system.issued key + 1) }
  | answer {event task key presented again answer}
      (isAt : system.tasks task = .requesting key presented again)
      (keeps : ∀ token, answer ≠ .refreshed (some token)) :
      Moves config system event (system.move task (.answered key presented again answer))
  | finish {task key presented again answer readable writable}
      (isAt : system.tasks task = .answered key presented again answer) :
      Moves config system (.finish task readable writable)
        (system.finish task key presented again answer readable writable)
  | cancelWaiting {task key token} (isAt : system.tasks task = .waiting key token) :
      Moves config system (.cancel task) (system.move task .idle)
  | cancelInFlight {task key} (inFlight : system.InFlight task key) :
      Moves config system (.cancel task) (system.leave task key)
  | clear {key} :
      Moves config system (.clear key) { system with cache := Function.update system.cache key none }

theorem moves_of_step {event : Event K} (stepped : system.step config event = some next) :
    Moves config system event next := by
  cases event with
  | call task key readable =>
    simp only [step] at stepped
    split at stepped
    · obtain rfl := Option.some_injective _ stepped
      exact .call ‹_›
    · simp at stepped
  | acquire task valid =>
    simp only [step] at stepped
    split at stepped
    · split at stepped
      · obtain rfl := Option.some_injective _ stepped
        exact .acquire ‹_› ‹_›
      · simp at stepped
    · simp at stepped
  | refresh task rotated =>
    simp only [step] at stepped
    split at stepped
    · rcases rotated with _ | _
      · obtain rfl := Option.some_injective _ stepped
        exact .answer ‹_› (by simp)
      · obtain rfl := Option.some_injective _ stepped
        exact .rotate ‹_›
    · simp at stepped
  | refuse task reused =>
    simp only [step] at stepped
    split at stepped
    · obtain rfl := Option.some_injective _ stepped
      refine .answer ‹_› fun token => ?_
      split <;> simp
    · simp at stepped
  | finish task readable writable =>
    simp only [step] at stepped
    split at stepped
    · obtain rfl := Option.some_injective _ stepped
      exact .finish ‹_›
    · simp at stepped
  | cancel task =>
    simp only [step] at stepped
    split at stepped
    · obtain rfl := Option.some_injective _ stepped
      exact .cancelWaiting ‹_›
    · obtain rfl := Option.some_injective _ stepped
      exact .cancelInFlight (inFlight_requesting ‹_›)
    · obtain rfl := Option.some_injective _ stepped
      exact .cancelInFlight (inFlight_answered ‹_›)
    · simp at stepped
  | clear key =>
    obtain rfl := Option.some_injective _ stepped
    exact .clear

/-- **A step** keeps the locks. -/
theorem moves_exclusive {event : Event K} (exclusive : system.Exclusive)
    (moves : Moves config system event next) : next.Exclusive := by
  cases moves with
  | call isAt => exact exclusive_move exclusive fun _ => not_inFlight_waiting
  | acquire isAt free => exact exclusive_acquire exclusive isAt free
  | rotate isAt => exact exclusive_answer exclusive isAt
  | answer isAt keeps => exact exclusive_answer exclusive isAt
  | finish isAt => exact exclusive_finish exclusive isAt
  | cancelWaiting isAt => exact exclusive_move exclusive fun _ => not_inFlight_idle
  | cancelInFlight inFlight => exact exclusive_leave exclusive inFlight
  | clear => exact exclusive

/-! ### Tokens -/

/-- What a task has is what the last answers for its key left. -/
def Sound (system : System K) : Task K → Prop
  | .requesting key presented _ => system.Fresh key presented
  | .answered key _ _ (.refreshed (some token)) => token = .issued (system.issued key)
  | .answered key presented _ _ => system.Fresh key presented
  | _ => True

/-- Where the next request of a key takes the last token from. -/
def Source (system : System K) (key : K) : Prop :=
  system.issued key = 0 ∨ system.Pending key ∨
    system.cache key = some (.issued (system.issued key)) ∨
      system.cache key = none ∧ system.store.tokens key = some (.issued (system.issued key)) ∧
        ∀ task token, system.tasks task = .waiting key token → token = .issued (system.issued key)

/-- **The invariant.** Before the store is loaded no task has called. -/
structure Kept (system : System K) : Prop where
  exclusive : system.Exclusive
  unloaded : system.store.loaded = false →
    (∀ task, system.tasks task = .idle) ∧ ∀ key, system.issued key = 0
  sound : ∀ task, system.Sound (system.tasks task)
  source : ∀ key, system.Source key
  requests : ∀ request ∈ system.requests, request.issued ≤ request.presented.number

theorem issued_le_of_fresh {key : K} (fresh : system.Fresh key token) :
    system.issued key ≤ token.number := by
  rcases fresh with none | last
  · rw [none]
    exact Nat.zero_le _
  · rw [last]
    exact Nat.le_refl _

/-- **The frame of a source**: a task that is not the one with the new token is at another point, where it
waits with what the store has. -/
theorem source_move {key : K} (source : system.Source key) (keeps : ∀ presented again token,
      system.tasks task ≠ .answered key presented again (.refreshed (some token)))
    (reads : ∀ token last, state = .waiting key token → system.store.tokens key = some last →
      token = last) : (system.move task state).Source key := by
  rcases source with unused | ⟨other, presented, again, token, isAt⟩ | inCache | ⟨empty, stored, waits⟩
  · exact Or.inl unused
  · refine Or.inr (Or.inl ⟨other, presented, again, token, ?_⟩)
    have differ : other ≠ task := by
      rintro rfl
      exact keeps _ _ _ isAt
    rw [move_of_ne differ, isAt]
  · exact Or.inr (Or.inr (Or.inl inCache))
  · refine Or.inr (Or.inr (Or.inr ⟨empty, stored, fun other token isAt => ?_⟩))
    by_cases same : other = task
    · subst same
      rw [move_self] at isAt
      exact reads token _ isAt stored
    · rw [move_of_ne same] at isAt
      exact waits other token isAt

theorem source_congr {other : System K} {key : K} (source : system.Source key)
    (tasks : other.tasks = system.tasks) (cache : other.cache key = system.cache key)
    (stored : other.store.tokens key = system.store.tokens key)
    (issued : other.issued key = system.issued key) : other.Source key := by
  simpa only [Source, Pending, tasks, cache, stored, issued] using source

theorem sound_move (sound : ∀ other, system.Sound (system.tasks other))
    (own : system.Sound state) (other : Nat) :
    (system.move task state).Sound ((system.move task state).tasks other) := by
  by_cases same : other = task
  · subst same
    rw [move_self]
    exact own
  · rw [move_of_ne same]
    exact sound other

theorem loaded_of_busy (kept : system.Kept) (busy : system.tasks task ≠ .idle) :
    system.store.loaded = true := by
  by_contra unloaded
  exact busy ((kept.unloaded (Bool.eq_false_iff.mpr unloaded)).1 task)

theorem busy_of_inFlight {key : K} (inFlight : system.InFlight task key) :
    system.tasks task ≠ .idle := by
  obtain ⟨presented, again, isAt | ⟨answer, isAt⟩⟩ := inFlight
  · simp [isAt]
  · simp [isAt]

theorem kept_move (kept : system.Kept)
    (busy : system.tasks task ≠ .idle) (exclusive : (system.move task state).Exclusive)
    (own : system.Sound state) (runs : ∀ key token, state ≠ .waiting key token)
    (keeps : ∀ presented again token other,
      system.tasks task ≠ .answered other presented again (.refreshed (some token))) :
    (system.move task state).Kept where
  exclusive := exclusive
  unloaded unloaded := absurd (loaded_of_busy kept busy) (Bool.eq_false_iff.mp unloaded)
  sound := sound_move kept.sound own
  source other := source_move (kept.source other) (fun _ _ _ => keeps _ _ _ _)
    fun _ _ waits => absurd waits (runs _ _)
  requests := kept.requests

theorem kept_leave {key : K} (kept : system.Kept) (inFlight : system.InFlight task key)
    (keeps : ∀ presented again token other,
      system.tasks task ≠ .answered other presented again (.refreshed (some token))) :
    (system.leave task key).Kept where
  exclusive := exclusive_leave kept.exclusive inFlight
  unloaded unloaded :=
    absurd (loaded_of_busy kept (busy_of_inFlight inFlight)) (Bool.eq_false_iff.mp unloaded)
  sound := sound_move kept.sound trivial
  source other := source_move (kept.source other) (fun _ _ _ => keeps _ _ _ _) (by simp)
  requests := kept.requests

theorem kept_request {key : K} (kept : system.Kept) (busy : system.tasks task ≠ .idle)
    (free : system.holder key = none ∨ system.holder key = some task)
    (own : ∀ other, other ≠ key → ¬ system.InFlight task other)
    (keeps : ∀ presented again token other,
      system.tasks task ≠ .answered other presented again (.refreshed (some token)))
    (fresh : system.Fresh key presented) : (system.request task key presented again).Kept where
  exclusive := exclusive_request kept.exclusive free own
  unloaded unloaded := absurd (loaded_of_busy kept busy) (Bool.eq_false_iff.mp unloaded)
  sound := sound_move kept.sound fresh
  source other := source_move (kept.source other) (fun _ _ _ => keeps _ _ _ _) (by simp)
  requests request isRequest := by
    rcases List.mem_append.mp isRequest with earlier | this
    · exact kept.requests request earlier
    · obtain rfl := List.mem_singleton.mp this
      exact issued_le_of_fresh fresh

theorem kept_call {key : K} {readable : Bool} (kept : system.Kept)
    (isAt : system.tasks task = .idle) : (system.call config task key readable).Kept where
  exclusive := exclusive_move kept.exclusive fun _ => not_inFlight_waiting
  unloaded unloaded := by
    simp only [call, Store.ensureLoaded] at unloaded
    split at unloaded
    · simp_all
    · split at unloaded <;> simp at unloaded
  sound := sound_move kept.sound trivial
  source other := by
    by_cases loaded : system.store.loaded = true
    · have same : system.store.ensureLoaded readable = system.store := if_pos loaded
      rw [call, same]
      refine source_move (kept.source other) (by simp [isAt]) fun token last reads stored => ?_
      simp only [Task.waiting.injEq] at reads
      rw [← reads.2, reads.1, stored]
      rfl
    · exact Or.inl ((kept.unloaded (Bool.eq_false_iff.mpr loaded)).2 other)
  requests := kept.requests

theorem fresh_of_waiting {key : K} (kept : system.Kept)
    (isAt : system.tasks task = .waiting key token) (free : system.holder key = none) :
    system.Fresh key ((system.cache key).getD token) := by
  rcases kept.source key with unused | ⟨other, _, _, _, pending⟩ | inCache | ⟨empty, _, waits⟩
  · exact Or.inl unused
  · have holds := kept.exclusive other key (inFlight_answered pending)
    rw [free] at holds
    exact absurd holds.symm (Option.some_ne_none _)
  · exact Or.inr (by rw [inCache]; rfl)
  · exact Or.inr (by rw [empty, ← waits task token isAt]; rfl)

theorem kept_acquire {key : K} {valid : Bool} (kept : system.Kept)
    (isAt : system.tasks task = .waiting key token) (free : system.holder key = none) :
    (system.acquire task key token valid).Kept := by
  rw [acquire]
  split
  · exact kept_move kept (by simp [isAt]) (exclusive_move kept.exclusive fun _ => not_inFlight_idle)
      trivial (by simp) (by simp [isAt])
  · refine kept_request kept (by simp [isAt]) (Or.inl free) (fun other _ inFlight => ?_)
      (by simp [isAt]) (fresh_of_waiting kept isAt free)
    obtain ⟨_, _, otherAt | ⟨_, otherAt⟩⟩ := inFlight
    · simp [isAt] at otherAt
    · simp [isAt] at otherAt

theorem sound_congr {other : System K}
    (same : ∀ key presented again, (state = .requesting key presented again ∨
      ∃ answer, state = .answered key presented again answer) → other.issued key = system.issued key)
    (sound : system.Sound state) : other.Sound state := by
  cases state with
  | idle => trivial
  | waiting key token => trivial
  | requesting key presented again =>
    simpa only [Sound, Fresh, same key presented again (Or.inl rfl)] using sound
  | answered key presented again answer =>
    have issued := same key presented again (Or.inr ⟨answer, rfl⟩)
    rcases answer with (_ | token) | _ | _ <;> simpa only [Sound, Fresh, issued] using sound

/-- The server returns a new token. No other task has one of the key. -/
theorem kept_rotate {key : K} (kept : system.Kept)
    (isAt : system.tasks task = .requesting key presented again) :
    Kept { system.move task (.answered key presented again
        (.refreshed (some (.issued (system.issued key + 1))))) with
      issued := Function.update system.issued key (system.issued key + 1) } where
  exclusive := exclusive_answer kept.exclusive isAt
  unloaded unloaded :=
    absurd (loaded_of_busy kept (busy_of_inFlight (inFlight_requesting isAt)))
      (Bool.eq_false_iff.mp unloaded)
  sound other := by
    by_cases same : other = task
    · subst same
      simp [Sound]
    · have sound := kept.sound other
      have differ : ∀ otherKey, system.InFlight other otherKey → otherKey ≠ key := by
        rintro otherKey inFlight rfl
        have holds := kept.exclusive other otherKey inFlight
        rw [kept.exclusive task otherKey (inFlight_requesting isAt)] at holds
        exact same (Option.some_injective _ holds).symm
      have elsewhere : (system.move task (.answered key presented again
          (.refreshed (some (.issued (system.issued key + 1)))))).tasks other = system.tasks other :=
        move_of_ne same
      dsimp only
      rw [elsewhere]
      refine sound_congr (fun otherKey _ _ isAt => ?_) sound
      exact Function.update_of_ne (differ otherKey ⟨_, _, isAt⟩) ..
  source other := by
    by_cases same : other = key
    · exact Or.inr (Or.inl ⟨task, presented, again, .issued (system.issued key + 1), by simp [same]⟩)
    · have moved : (system.move task (.answered key presented again
          (.refreshed (some (.issued (system.issued key + 1)))))).Source other :=
        source_move (kept.source other) (by simp [isAt]) (by simp)
      exact source_congr moved rfl rfl rfl (Function.update_of_ne same ..)
  requests := kept.requests

theorem persist_of_loaded {store : Store K} (loaded : store.loaded = true) (key : K) (token : Token)
    (readable writable : Bool) :
    (store.persist key token readable writable).loaded = true ∧
      ∀ other, other ≠ key →
        (store.persist key token readable writable).tokens other = store.tokens other := by
  have same : store.ensureLoaded readable = store := if_pos loaded
  simp only [Store.persist, same]
  split
  · exact ⟨loaded, fun _ _ => rfl⟩
  · exact ⟨loaded, fun other differ => Function.update_of_ne differ ..⟩

theorem fresh_of_answered {key : K} {token : Option Token} (kept : system.Kept)
    (isAt : system.tasks task = .answered key presented again (.refreshed token)) :
    system.Fresh key (token.getD presented) := by
  have sound := kept.sound task
  rw [isAt] at sound
  rcases token with _ | token
  · exact sound
  · exact Or.inr sound

theorem kept_store {key : K} {token : Option Token} (kept : system.Kept)
    (isAt : system.tasks task = .answered key presented again (.refreshed token)) :
    (system.finish task key presented again (.refreshed token) readable writable).Kept := by
  have loaded := loaded_of_busy kept (busy_of_inFlight (inFlight_answered isAt))
  have stored := persist_of_loaded loaded key (token.getD presented) readable
    writable
  refine ⟨exclusive_leave kept.exclusive (inFlight_answered isAt), fun unloaded => ?_,
    sound_move kept.sound trivial, fun other => ?_, kept.requests⟩
  · exact absurd stored.1 (Bool.eq_false_iff.mp unloaded)
  · by_cases same : other = key
    · subst same
      rcases fresh_of_answered kept isAt with unused | last
      · exact Or.inl unused
      · exact Or.inr (Or.inr (Or.inl ((Function.update_self ..).trans (congrArg some last))))
    · have moved : (system.move task .idle).Source other := by
        refine source_move (kept.source other) (fun _ _ _ otherAt => ?_) (by simp)
        rw [isAt, Task.answered.injEq] at otherAt
        exact same otherAt.1.symm
      exact source_congr moved rfl (Function.update_of_ne same ..) (stored.2 other same) rfl

theorem kept_reload {key : K}
    (kept : system.Kept) (isAt : system.tasks task = .answered key presented false .reused)
    (safe : system.Safe (.finish task readable writable)) :
    Kept { system with store := system.store.reload readable } where
  exclusive := kept.exclusive
  unloaded unloaded := by simp [Store.reload] at unloaded
  sound := kept.sound
  source other := by
    rcases safe key presented isAt other with unused | pending | stored | ⟨inCache, _⟩
    · exact Or.inl unused
    · exact Or.inr (Or.inl pending)
    · rcases kept.source other with unused | pending | inCache | ⟨empty, _, waits⟩
      · exact Or.inl unused
      · exact Or.inr (Or.inl pending)
      · exact Or.inr (Or.inr (Or.inl inCache))
      · exact Or.inr (Or.inr (Or.inr ⟨empty, stored, waits⟩))
    · exact Or.inr (Or.inr (Or.inl inCache))
  requests := kept.requests

/-- The token that a forced reload finds for the key itself. -/
theorem fresh_of_reload {key : K} {presented latest : Token}
    (kept : system.Kept) (isAt : system.tasks task = .answered key presented false .reused)
    (safe : system.Safe (.finish task readable writable))
    (found : (system.store.reload readable).tokens key = some latest) : system.Fresh key latest := by
  rcases safe key presented isAt key with unused | ⟨other, _, _, _, pending⟩ | stored | ⟨_, missing⟩
  · exact Or.inl unused
  · have holds := kept.exclusive other key (inFlight_answered pending)
    rw [kept.exclusive task key (inFlight_answered isAt)] at holds
    rw [← Option.some_injective _ holds, isAt] at pending
    simp at pending
  · rw [found] at stored
    exact Or.inr (Option.some_injective _ stored)
  · rw [missing rfl] at found
    exact absurd found.symm (Option.some_ne_none _)

theorem kept_finish {key : K} (kept : system.Kept)
    (isAt : system.tasks task = .answered key presented again answer)
    (safe : system.Safe (.finish task readable writable)) :
    (system.finish task key presented again answer readable writable).Kept := by
  rcases answer with token | _ | _
  · exact kept_store kept isAt
  · have inFlight := inFlight_answered isAt
    rw [finish.eq_def]
    dsimp only
    split
    · exact kept_leave kept inFlight (by simp [isAt])
    · rename_i first
      obtain rfl : again = false := Bool.eq_false_iff.mpr first
      have reloaded := kept_reload kept isAt safe
      split
      · rename_i latest found
        split
        · exact kept_leave reloaded inFlight (by simp [isAt])
        · have fresh : system.Fresh key latest := fresh_of_reload kept isAt safe found
          refine kept_request reloaded (by simp [isAt]) (Or.inr (kept.exclusive task key inFlight))
            (fun other differ otherInFlight => ?_) (by simp [isAt]) fresh
          exact differ (inFlight_key inFlight otherInFlight)
      · exact kept_leave reloaded inFlight (by simp [isAt])
  · exact kept_leave kept (inFlight_answered isAt) (by simp [isAt])

theorem kept_clear {key : K} (kept : system.Kept) (safe : system.Safe (.clear key)) :
    Kept { system with cache := Function.update system.cache key none } where
  exclusive := kept.exclusive
  unloaded := kept.unloaded
  sound := kept.sound
  source other := by
    by_cases same : other = key
    · subst same
      rcases safe with empty | unused | pending | ⟨stored, waits⟩
      · exact source_congr (kept.source other) rfl (by simp [empty]) rfl rfl
      · exact Or.inl unused
      · exact Or.inr (Or.inl pending)
      · exact Or.inr (Or.inr (Or.inr ⟨Function.update_self .., stored, waits⟩))
    · exact source_congr (kept.source other) rfl (Function.update_of_ne same ..) rfl rfl
  requests := kept.requests

theorem sound_answer {key : K}
    (fresh : system.Fresh key presented) (keeps : ∀ token, answer ≠ .refreshed (some token)) :
    system.Sound (.answered key presented again answer) := by
  rcases answer with (_ | token) | _ | _
  · exact fresh
  · exact absurd rfl (keeps token)
  · exact fresh
  · exact fresh

/-- **A safe step** keeps the invariant. -/
theorem step_kept {event : Event K} (kept : system.Kept) (safe : system.Safe event)
    (stepped : system.step config event = some next) : next.Kept := by
  cases moves_of_step stepped with
  | call isAt => exact kept_call kept isAt
  | acquire isAt free => exact kept_acquire kept isAt free
  | rotate isAt => exact kept_rotate kept isAt
  | answer isAt keeps =>
    refine kept_move kept (by simp [isAt]) (exclusive_answer kept.exclusive isAt)
      (sound_answer ?_ keeps) (by simp) (by simp [isAt])
    have sound := kept.sound ‹_›
    rwa [isAt] at sound
  | finish isAt => exact kept_finish kept isAt safe
  | cancelWaiting isAt =>
    exact kept_move kept (by simp [isAt]) (exclusive_move kept.exclusive fun _ => not_inFlight_idle)
      trivial (by simp) (by simp [isAt])
  | cancelInFlight inFlight => exact kept_leave kept inFlight fun _ _ _ _ => safe _ _ _ _
  | clear => exact kept_clear kept safe

/-! ### Runs -/

theorem run_exclusive {events : List (Event K)} (exclusive : system.Exclusive)
    (ran : system.run config events = some next) : next.Exclusive := by
  induction events generalizing system with
  | nil => exact Option.some_injective _ ran ▸ exclusive
  | cons event rest ih =>
    obtain ⟨middle, stepped, ran⟩ := Option.bind_eq_some_iff.mp ran
    exact ih (moves_exclusive exclusive (moves_of_step stepped)) ran

theorem run_kept {events : List (Event K)} (kept : system.Kept) (safe : system.SafeRun config events)
    (ran : system.run config events = some next) : next.Kept := by
  induction events generalizing system with
  | nil => exact Option.some_injective _ ran ▸ kept
  | cons event rest ih =>
    obtain ⟨middle, stepped, ran⟩ := Option.bind_eq_some_iff.mp ran
    exact ih (step_kept kept safe.1 stepped) (safe.2 middle stepped) ran

theorem start_kept (file : K → Option Bytes) : (start file).Kept where
  exclusive _ _ inFlight := absurd rfl (busy_of_inFlight inFlight)
  unloaded _ := ⟨fun _ => rfl, fun _ => rfl⟩
  sound _ := trivial
  source _ := Or.inl rfl
  requests _ isRequest := by simp [start] at isRequest

end System

open UniApi.Auth.System

variable {config : K → Bytes} {last : System K}

/-- **No token is lost in a safe run.** One request of a key is in flight, in every run; and where the
steps are safe, a request presents the last token that the server has returned for its key. -/
theorem tokens_kept (file : K → Option Bytes) (events : List (Event K))
    (ran : (start file).run config events = some last) :
    (∀ key task other, last.InFlight task key → last.InFlight other key → other = task) ∧
      ((start file).SafeRun config events →
        ∀ request ∈ last.requests, request.issued ≤ request.presented.number) := by
  refine ⟨fun key task other inFlight otherInFlight => ?_, fun safe => ?_⟩
  · have exclusive := run_exclusive (start_kept file).exclusive ran
    have holds := exclusive other key otherInFlight
    rw [exclusive task key inFlight] at holds
    exact (Option.some_injective _ holds).symm
  · exact (run_kept (start_kept file) safe ran).requests

end Manager

/-! ### Two runs -/

/-- A token is rotated and stored, its entry is cleared, and the next call presents it. -/
def clearedRun : List (Event Nat) :=
  [.call 0 0 true, .acquire 0 false, .refresh 0 true, .finish 0 true true, .clear 0, .call 1 0 true,
    .acquire 1 false]

theorem tokens_kept_cleared :
    ∃ last, (System.start fun _ => none).run (fun _ => [97]) clearedRun = some last ∧
      ∀ request ∈ last.requests, request.issued ≤ request.presented.number := by
  refine ⟨_, rfl, (tokens_kept (fun _ => none) clearedRun rfl).2 ?_⟩
  refine ⟨trivial, fun _ called => ?_⟩
  obtain rfl := Option.some_injective _ called
  refine ⟨trivial, fun _ acquired => ?_⟩
  obtain rfl := Option.some_injective _ acquired
  refine ⟨trivial, fun _ refreshed => ?_⟩
  obtain rfl := Option.some_injective _ refreshed
  refine ⟨fun _ _ isAt => absurd isAt (by simp), fun _ finished => ?_⟩
  obtain rfl := Option.some_injective _ finished
  refine ⟨Or.inr (Or.inr (Or.inr ⟨rfl, fun _ _ isAt => ?_⟩)), fun _ cleared => ?_⟩
  · simp [System.finish, System.leave, System.move, System.acquire, System.request, System.call,
      System.start] at isAt
  obtain rfl := Option.some_injective _ cleared
  refine ⟨trivial, fun _ called => ?_⟩
  obtain rfl := Option.some_injective _ called
  exact ⟨trivial, fun _ _ => trivial⟩

/-- Two tasks have read the token of the configuration. The first one's new token is cleared before the
second one takes the lock. -/
def lateRun : List (Event Nat) :=
  [.call 0 0 true, .call 1 0 true, .acquire 0 false, .refresh 0 true, .finish 0 true true, .clear 0,
    .acquire 1 false]

theorem old_token_presented :
    ¬ ∀ (config : Nat → Bytes) (file : Nat → Option Bytes) (events : List (Event Nat)) last,
      (System.start file).run config events = some last →
        ∀ request ∈ last.requests, request.issued ≤ request.presented.number := by
  intro kept
  have ran : ((System.start fun _ => none).run (fun _ => [97]) lateRun).map (·.requests) =
      some [⟨0, .known [97], 0⟩, ⟨0, .known [97], 1⟩] := rfl
  obtain ⟨last, ran, requests⟩ := Option.map_eq_some_iff.mp ran
  have fresh := kept _ _ _ last ran ⟨0, .known [97], 1⟩ (by simp [requests])
  exact Nat.not_succ_le_zero 0 fresh

end UniApi.Auth
