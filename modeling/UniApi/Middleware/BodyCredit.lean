/-
**The account of a request body.**

An admitted request is charged for its body in three places: when its length is declared, when frames
are buffered in the queue, and when frames are received. What is charged there is credit, which a
middleware spends with `reserve_body_bytes` before its lease is charged anything more.

* `Balanced`: what a lease is charged is what was requested and not released, and all the credit;
* `startCall_settled`: a call leaves the account balanced;
* `Solvent`: a caller that never releases more than it has requested;
* `run_backed`: at every step of a solvent caller its lease is charged for what it holds.
-/

import Mathlib.Algebra.Order.Ring.Nat
import Mathlib.Tactic.Common
import UniApi.Lib.Utf8

namespace UniApi.Middleware

open UniApi.Lib

/-! ### Requests -/

/-- An `http.request` message. -/
structure Frame where
  body : Bytes
  more : Bool

/-- What the headers say of the body: the values of Content-Length, and whether the encoding is empty
or identity and the media type is JSON. -/
structure BodyHeaders where
  contentLengths : List Bytes
  identityEncoded : Bool
  jsonBody : Bool

/-- `isdigit` of a byte. -/
def isDigit (byte : UInt8) : Bool := 48 ≤ byte && byte ≤ 57

/-- `_valid_declared_content_length`. `int` takes 4300 digits at most. -/
def validDeclaredContentLength (headers : BodyHeaders) : Option Nat :=
  match headers.contentLengths with
  | [value] =>
    if !value.isEmpty && value.all isDigit && value.length ≤ 4300 then
      some (value.foldl (fun length byte => 10 * length + (byte.toNat - 48)) 0)
    else none
  | _ => none

/-- `_declared_memory_target`. -/
def declaredMemoryTarget (headers : BodyHeaders) (contentLength : Nat) : Nat :=
  contentLength * if headers.identityEncoded && headers.jsonBody then 5 else 1

theorem le_declaredMemoryTarget (headers : BodyHeaders) (contentLength : Nat) :
    contentLength ≤ declaredMemoryTarget headers contentLength := by
  unfold declaredMemoryTarget
  split <;> omega

/-! ### Accounts -/

/-- What an admitted request has: `lease.reserved_body_bytes`, the buffered messages with their credit,
`available_replayed_credit` and `pre_reserved_wire_credit`. The rest is kept for the proofs: the bytes
requested and released with success, and the credit that calls took which then raised. -/
structure Account where
  reserved : Nat
  replayed : List (Frame × Nat)
  replayCredit : Nat
  wireCredit : Nat
  requested : Nat
  released : Nat
  lost : Nat

/-- The replay credit that is not spent, of the messages that are still buffered too. -/
def Account.unspent (account : Account) : Nat :=
  account.replayCredit + (account.replayed.map Prod.snd).sum

/-- The answer to a call of the middleware that reads the body. -/
inductive Answer where
  | message (frame : Frame)
  | done
  | raised

/-- Where a request waits. -/
inductive Phase where
  /-- `lease.reserve_body_bytes` for a declared length, with the credit that it gives. -/
  | declaring (additional replay wire : Nat)
  /-- `receive()`. -/
  | receiving
  /-- `lease.reserve_body_bytes` for a message that was received. -/
  | charging (frame : Frame) (credited additional : Nat)
  /-- `lease.release_body_bytes` for what the last message has left of the wire credit. -/
  | trimming (frame : Frame) (unused : Nat)
  /-- `lease.reserve_body_bytes` for a caller. -/
  | requesting (credited remaining : Nat)
  /-- `lease.release_body_bytes` for a caller. -/
  | releasing (bytes : Nat)
  /-- Work of the caller in another thread. -/
  | computing
  | answering (answer : Answer)
  | finished

/-- The credit that a call has taken and not used yet. -/
def Phase.inFlight : Phase → Nat
  | .charging _ credited _ => credited
  | .trimming _ unused => unused
  | .requesting credited _ => credited
  | _ => 0

/-- The credit of a declared length. -/
def Account.addCredit (account : Account) (replay wire : Nat) : Account :=
  { account with replayCredit := account.replayCredit + replay, wireCredit := wire }

/-- `reserve_body_bytes`, to where it waits. -/
def reserveBodyBytes (bytes : Nat) (account : Account) : Account × Phase :=
  let credited := min bytes account.replayCredit
  let remaining := bytes - credited
  let account := { account with replayCredit := account.replayCredit - credited }
  if remaining = 0 then
    ({ account with requested := account.requested + bytes }, .answering .done)
  else (account, .requesting credited remaining)

/-- `replay_receive` after a message was charged. -/
def frameCharged (frame : Frame) (account : Account) : Account × Phase :=
  let account := { account with replayCredit := account.replayCredit + frame.body.length }
  if frame.more = false ∧ account.wireCredit ≠ 0 then
    ({ account with wireCredit := 0 }, .trimming frame account.wireCredit)
  else (account, .answering (.message frame))

/-- `replay_receive` after a message was received. -/
def frameReceived (frame : Frame) (account : Account) : Account × Phase :=
  let credited := min frame.body.length account.wireCredit
  let additional := frame.body.length - credited
  let account := { account with wireCredit := account.wireCredit - credited }
  if additional = 0 then frameCharged frame account
  else (account, .charging frame credited additional)

/-! ### Runs -/

/-- What a caller does next. -/
inductive Call where
  | receive
  | reserve (bytes : Nat)
  | release (bytes : Nat)
  | compute
  | finish

/-- A caller: from its state and the answer to its last call, its next state and call. -/
structure Caller (κ : Type) where
  next : κ → Answer → κ × Call

/-- A request whose body is read: the messages that its server has yet to deliver, and its caller. -/
structure World (κ : Type) where
  account : Account
  incoming : List Frame
  caller : κ
  phase : Phase

/-- What happens where a request waits. -/
inductive Event where
  | resume
  | raise

section Runs

variable {κ : Type} (caller : Caller κ)

/-- A call, to where it waits. -/
def startCall (call : Call) (account : Account) : Account × Phase :=
  match call with
  | .receive => (account, .receiving)
  | .reserve bytes => reserveBodyBytes bytes account
  | .release bytes => (account, .releasing bytes)
  | .compute => (account, .computing)
  | .finish => (account, .finished)

/-- `release_body_bytes` of the lease. -/
def releaseLease (bytes : Nat) (account : Account) : Option Account :=
  if bytes ≤ account.reserved then some { account with reserved := account.reserved - bytes }
  else none

/-- A step of a request, to where it waits next. -/
def step (world : World κ) (event : Event) : World κ :=
  let stay := fun (next : Account × Phase) => { world with account := next.1, phase := next.2 }
  let account := world.account
  match world.phase, event with
  | .declaring additional replay wire, .resume =>
    stay ({ account with reserved := account.reserved + additional }.addCredit replay wire,
      .answering .done)
  | .declaring _ _ _, .raise => stay (account, .finished)
  | .receiving, .resume =>
    match account.replayed, world.incoming with
    | (frame, credited) :: rest, _ =>
      stay ({ account with
        replayed := rest
        replayCredit := account.replayCredit + credited }, .answering (.message frame))
    -- the server has no more messages but the disconnect
    | [], [] => stay (account, .answering .raised)
    | [], frame :: rest => { stay (frameReceived frame account) with incoming := rest }
  | .receiving, .raise => stay (account, .answering .raised)
  | .charging frame _ additional, .resume =>
    stay (frameCharged frame { account with reserved := account.reserved + additional })
  | .charging _ credited _, .raise =>
    stay ({ account with lost := account.lost + credited }, .answering .raised)
  | .trimming frame unused, .resume =>
    match releaseLease unused account with
    | some account => stay (account, .answering (.message frame))
    | none => stay ({ account with lost := account.lost + unused }, .answering .raised)
  | .trimming _ unused, .raise =>
    stay ({ account with lost := account.lost + unused }, .answering .raised)
  | .requesting credited remaining, .resume =>
    stay ({ account with
      reserved := account.reserved + remaining
      requested := account.requested + (credited + remaining) }, .answering .done)
  | .requesting credited _, .raise =>
    stay ({ account with lost := account.lost + credited }, .answering .raised)
  | .releasing bytes, .resume =>
    match releaseLease bytes account with
    | some account => stay ({ account with released := account.released + bytes }, .answering .done)
    | none => stay (account, .answering .raised)
  | .releasing _, .raise => stay (account, .answering .raised)
  | .computing, .resume => stay (account, .answering .done)
  | .computing, .raise => stay (account, .answering .raised)
  | .answering answer, _ =>
    { stay (startCall (caller.next world.caller answer).2 account) with
      caller := (caller.next world.caller answer).1 }
  | .finished, _ => world

/-- A run. -/
def run (world : World κ) (events : List Event) : World κ := events.foldl (step caller) world

/-- The account of a request with the messages that were buffered in the queue. -/
def queuedAccount (buffered : List Frame) : Account :=
  { reserved := (buffered.map (·.body.length)).sum
    replayed := buffered.map fun frame => (frame, frame.body.length)
    replayCredit := 0, wireCredit := 0, requested := 0, released := 0, lost := 0 }

/-- The account of an admitted request, to where its admission waits. -/
def declareBody (headers : BodyHeaders) (account : Account) : Account × Phase :=
  match validDeclaredContentLength headers with
  | none => (account, .answering .done)
  | some declared =>
    let target := declaredMemoryTarget headers declared
    let additional := target - account.reserved
    let replay := target - declared
    let wire := declared - account.reserved
    if additional = 0 then (account.addCredit replay wire, .answering .done)
    else (account, .declaring additional replay wire)

/-- A request when it is admitted. -/
def admitRequest (headers : BodyHeaders) (buffered incoming : List Frame) (start : κ) : World κ :=
  { account := (declareBody headers (queuedAccount buffered)).1
    incoming := incoming
    caller := start
    phase := (declareBody headers (queuedAccount buffered)).2 }

end Runs

/-! ### Balance -/

/-- **An account is balanced**: what its lease is charged, and was charged for what is released, is what
was requested, the credit that is left, and the credit that calls hold or have lost. -/
def Account.Balanced (account : Account) (inFlight : Nat) : Prop :=
  account.reserved + account.released =
    account.requested + account.unspent + account.wireCredit + inFlight + account.lost

/-- A charge is for the credit that it gives: a declared length, before there is other wire credit, and
a message. -/
def Phase.Funded (account : Account) : Phase → Prop
  | .declaring additional replay wire => additional = replay + wire ∧ account.wireCredit = 0
  | .charging frame credited additional => credited + additional = frame.body.length
  | _ => True

/-- An account where a request waits is balanced. -/
structure Settled (next : Account × Phase) : Prop where
  balanced : next.1.Balanced next.2.inFlight
  funded : next.2.Funded next.1

section Balance

variable {account : Account}

theorem settled_answering {answer : Answer} (balanced : account.Balanced 0) :
    Settled (account, .answering answer) := ⟨balanced, trivial⟩

theorem reserveBodyBytes_settled (balanced : account.Balanced 0) (bytes : Nat) :
    Settled (reserveBodyBytes bytes account) := by
  simp only [reserveBodyBytes]
  split <;> refine ⟨?_, trivial⟩ <;>
  · simp only [Account.Balanced, Account.unspent, Phase.inFlight] at *
    omega

theorem frameCharged_settled {frame : Frame} (balanced : account.Balanced frame.body.length) :
    Settled (frameCharged frame account) := by
  simp only [frameCharged]
  split <;> refine ⟨?_, trivial⟩ <;>
  · simp only [Account.Balanced, Account.unspent, Phase.inFlight] at *
    omega

theorem frameReceived_settled (frame : Frame) (balanced : account.Balanced 0) :
    Settled (frameReceived frame account) := by
  simp only [frameReceived]
  split
  · refine frameCharged_settled ?_
    simp only [Account.Balanced, Account.unspent] at *
    omega
  · simp only [Account.Balanced, Account.unspent] at balanced
    constructor
    · simp only [Account.Balanced, Account.unspent, Phase.inFlight]
      omega
    · simp only [Phase.Funded]
      omega

theorem startCall_settled (call : Call) (balanced : account.Balanced 0) :
    Settled (startCall call account) := by
  cases call with
  | reserve bytes => exact reserveBodyBytes_settled balanced bytes
  | receive => exact ⟨balanced, trivial⟩
  | release bytes => exact ⟨balanced, trivial⟩
  | compute => exact ⟨balanced, trivial⟩
  | finish => exact ⟨balanced, trivial⟩

end Balance

section Runs

variable {κ : Type} {caller : Caller κ}

/-- **A step** keeps the account balanced. -/
theorem step_settled {world : World κ} (settled : Settled (world.account, world.phase))
    (event : Event) :
    Settled ((step caller world event).account, (step caller world event).phase) := by
  obtain ⟨account, incoming, state, phase⟩ := world
  obtain ⟨balanced, funded⟩ := settled
  cases phase with
  | declaring additional replay wire =>
    cases event with
    | resume =>
      simp only [step]
      refine settled_answering ?_
      simp only [Account.Balanced, Account.unspent, Account.addCredit, Phase.inFlight,
        Phase.Funded] at *
      omega
    | raise => exact ⟨balanced, trivial⟩
  | receiving =>
    cases event with
    | resume =>
      obtain ⟨reserved, replayed, replayCredit, wireCredit, requested, released, lost⟩ := account
      cases replayed with
      | cons entry rest =>
        simp only [step]
        refine settled_answering ?_
        simp only [Account.Balanced, Account.unspent, Phase.inFlight, List.map_cons,
          List.sum_cons] at *
        omega
      | nil =>
        cases incoming with
        | nil => exact settled_answering balanced
        | cons frame rest => exact frameReceived_settled frame balanced
    | raise => exact settled_answering balanced
  | charging frame credited additional =>
    cases event with
    | resume =>
      simp only [step]
      refine frameCharged_settled ?_
      simp only [Account.Balanced, Account.unspent, Phase.inFlight, Phase.Funded] at *
      omega
    | raise =>
      simp only [step]
      refine settled_answering ?_
      simp only [Account.Balanced, Account.unspent, Phase.inFlight] at *
      omega
  | trimming frame unused =>
    have lost : Settled ({ account with lost := account.lost + unused },
        Phase.answering .raised) := by
      refine settled_answering ?_
      simp only [Account.Balanced, Account.unspent, Phase.inFlight] at *
      omega
    cases event with
    | resume =>
      simp only [step, releaseLease]
      by_cases covered : unused ≤ account.reserved
      · rw [if_pos covered]
        refine settled_answering ?_
        simp only [Account.Balanced, Account.unspent, Phase.inFlight] at *
        omega
      · rw [if_neg covered]
        exact lost
    | raise => exact lost
  | requesting credited remaining =>
    cases event with
    | resume =>
      simp only [step]
      refine settled_answering ?_
      simp only [Account.Balanced, Account.unspent, Phase.inFlight] at *
      omega
    | raise =>
      simp only [step]
      refine settled_answering ?_
      simp only [Account.Balanced, Account.unspent, Phase.inFlight] at *
      omega
  | releasing bytes =>
    cases event with
    | resume =>
      simp only [step, releaseLease]
      by_cases covered : bytes ≤ account.reserved
      · rw [if_pos covered]
        refine settled_answering ?_
        simp only [Account.Balanced, Account.unspent, Phase.inFlight] at *
        omega
      · rw [if_neg covered]
        exact settled_answering balanced
    | raise => exact settled_answering balanced
  | computing => cases event <;> exact settled_answering balanced
  | answering answer => exact startCall_settled _ balanced
  | finished => exact ⟨balanced, trivial⟩

/-- **A run** keeps the account balanced. -/
theorem run_settled {world : World κ} (settled : Settled (world.account, world.phase))
    (events : List Event) :
    Settled ((run caller world events).account, (run caller world events).phase) := by
  induction events generalizing world with
  | nil => exact settled
  | cons event rest ih => exact ih (step_settled settled event)

/-- **An admitted request** is balanced if its buffered messages are not longer than its declared
length. -/
theorem admit_settled {headers : BodyHeaders} {buffered : List Frame}
    (fits : ∀ declared, validDeclaredContentLength headers = some declared →
      (buffered.map (·.body.length)).sum ≤ declared) (incoming : List Frame) (start : κ) :
    Settled ((admitRequest headers buffered incoming start).account,
      (admitRequest headers buffered incoming start).phase) := by
  have credits : (buffered.map fun frame => (frame, frame.body.length)).map Prod.snd =
      buffered.map (·.body.length) := by
    rw [List.map_map]
    rfl
  have queued : (queuedAccount buffered).Balanced 0 := by
    simp only [Account.Balanced, Account.unspent, queuedAccount, credits]
    omega
  change Settled (declareBody headers (queuedAccount buffered))
  unfold declareBody
  cases isDeclared : validDeclaredContentLength headers with
  | none => exact settled_answering queued
  | some declared =>
    have fits : (queuedAccount buffered).reserved ≤ declared := fits declared isDeclared
    have target := le_declaredMemoryTarget headers declared
    dsimp only
    split
    · refine settled_answering ?_
      simp only [Account.Balanced, Account.unspent, Account.addCredit] at *
      have undeclared : (queuedAccount buffered).wireCredit = 0 := rfl
      omega
    · refine ⟨queued, ?_, rfl⟩
      omega

end Runs

/-! ### Solvent callers -/

section Solvent

variable {κ : Type} {caller : Caller κ} {backing : κ → Answer → Nat}

/-- What is needed after a call is there: what was there before, with what it reserves and without what
it releases. -/
def Covers (needs : Answer → Nat) (before : Nat) : Call → Prop
  | .reserve bytes => needs .done ≤ before + bytes ∧ needs .raised ≤ before
  | .release bytes => needs .done + bytes ≤ before ∧ needs .raised ≤ before
  | _ => ∀ later, needs later ≤ before

/-- **A solvent caller**: the bytes that it needs to have requested are covered in each state and for
each answer. -/
def Solvent (caller : Caller κ) (backing : κ → Answer → Nat) : Prop :=
  ∀ state answer, Covers (backing (caller.next state answer).1) (backing state answer)
    (caller.next state answer).2

/-- What a caller needs to have requested is requested, where a request waits. -/
def Backed (backing : Answer → Nat) (account : Account) : Phase → Prop
  | .requesting credited remaining =>
    account.released + backing .done ≤ account.requested + (credited + remaining) ∧
      account.released + backing .raised ≤ account.requested
  | .releasing bytes =>
    account.released + (backing .done + bytes) ≤ account.requested ∧
      account.released + backing .raised ≤ account.requested
  | .answering answer => account.released + backing answer ≤ account.requested
  | _ => ∀ answer, account.released + backing answer ≤ account.requested

theorem frameCharged_backed {needs : Answer → Nat} {account : Account} (frame : Frame)
    (backed : ∀ answer, account.released + needs answer ≤ account.requested) :
    Backed needs (frameCharged frame account).1 (frameCharged frame account).2 := by
  simp only [frameCharged]
  split
  · exact backed
  · exact backed _

theorem frameReceived_backed {needs : Answer → Nat} {account : Account} (frame : Frame)
    (backed : ∀ answer, account.released + needs answer ≤ account.requested) :
    Backed needs (frameReceived frame account).1 (frameReceived frame account).2 := by
  simp only [frameReceived]
  split
  · exact frameCharged_backed frame backed
  · exact backed

theorem startCall_backed (solvent : Solvent caller backing) {state : κ} {answer : Answer}
    {account : Account} (backed : account.released + backing state answer ≤ account.requested) :
    Backed (backing (caller.next state answer).1)
      (startCall (caller.next state answer).2 account).1
      (startCall (caller.next state answer).2 account).2 := by
  have covers := solvent state answer
  cases call : (caller.next state answer).2 with
  | reserve bytes =>
    rw [call] at covers
    obtain ⟨done, raised⟩ := covers
    simp only [startCall, reserveBodyBytes]
    split
    · simp only [Backed]
      omega
    · simp only [Backed]
      omega
  | release bytes =>
    rw [call] at covers
    obtain ⟨done, raised⟩ := covers
    simp only [startCall, Backed]
    omega
  | _ =>
    rw [call] at covers
    exact fun later => Nat.le_trans (Nat.add_le_add_left (covers later) _) backed

variable {world : World κ}

/-- **A step** keeps what a solvent caller needs requested. -/
theorem step_backed (solvent : Solvent caller backing)
    (backed : Backed (backing world.caller) world.account world.phase) (event : Event) :
    Backed (backing (step caller world event).caller) (step caller world event).account
      (step caller world event).phase := by
  obtain ⟨account, incoming, state, phase⟩ := world
  cases phase with
  | declaring additional replay wire =>
    cases event with
    | resume => exact backed .done
    | raise => exact backed
  | receiving =>
    cases event with
    | resume =>
      obtain ⟨reserved, replayed, replayCredit, wireCredit, requested, released, lost⟩ := account
      cases replayed with
      | cons entry rest => exact backed (.message entry.1)
      | nil =>
        cases incoming with
        | nil => exact backed .raised
        | cons frame rest => exact frameReceived_backed frame backed
    | raise => exact backed .raised
  | charging frame credited additional =>
    cases event with
    | resume => exact frameCharged_backed frame backed
    | raise => exact backed .raised
  | trimming frame unused =>
    cases event with
    | resume =>
      simp only [step, releaseLease]
      by_cases covered : unused ≤ account.reserved
      · rw [if_pos covered]
        exact backed (.message frame)
      · rw [if_neg covered]
        exact backed .raised
    | raise => exact backed .raised
  | requesting credited remaining =>
    cases event with
    | resume => exact backed.1
    | raise => exact backed.2
  | releasing bytes =>
    cases event with
    | resume =>
      simp only [step, releaseLease]
      by_cases covered : bytes ≤ account.reserved
      · rw [if_pos covered]
        simp only [Backed] at *
        omega
      · rw [if_neg covered]
        exact backed.2
    | raise => exact backed.2
  | computing =>
    cases event with
    | resume => exact backed .done
    | raise => exact backed .raised
  | answering answer => exact startCall_backed solvent backed
  | finished => exact backed

/-- **A run** keeps what a solvent caller needs requested. -/
theorem run_backed (solvent : Solvent caller backing)
    (backed : Backed (backing world.caller) world.account world.phase) (events : List Event) :
    Backed (backing (run caller world events).caller) (run caller world events).account
      (run caller world events).phase := by
  induction events generalizing world with
  | nil => exact backed
  | cons event rest ih => exact ih (step_backed solvent backed event)

/-- What a caller needs for any answer is requested where a request waits. -/
theorem Backed.held {needs : Answer → Nat} {account : Account} {phase : Phase} {bytes : Nat}
    (backed : Backed needs account phase) (held : ∀ answer, bytes ≤ needs answer) :
    account.released + bytes ≤ account.requested := by
  have raised := held .raised
  cases phase with
  | requesting credited remaining =>
    have requested := backed.2
    omega
  | releasing amount =>
    have requested := backed.2
    omega
  | answering answer =>
    have here := held answer
    have requested : account.released + needs answer ≤ account.requested := backed
    omega
  | _ =>
    have requested := backed .raised
    omega

theorem step_lost (settled : Settled (world.account, world.phase))
    (backed : Backed (backing world.caller) world.account world.phase)
    (kept : world.account.lost = 0) : (step caller world .resume).account.lost = 0 := by
  obtain ⟨account, incoming, state, phase⟩ := world
  cases phase with
  | trimming frame unused =>
    have balanced := settled.balanced
    have requested : account.released + backing state .raised ≤ account.requested := backed .raised
    simp only [Account.Balanced, Phase.inFlight] at balanced
    have covered : unused ≤ account.reserved := by omega
    simp only [step, releaseLease, if_pos covered]
    exact kept
  | receiving =>
    obtain ⟨reserved, replayed, replayCredit, wireCredit, requested, released, lost⟩ := account
    cases replayed with
    | cons entry rest => exact kept
    | nil =>
      cases incoming with
      | nil => exact kept
      | cons frame rest =>
        simp only [step, frameReceived, frameCharged]
        split <;> try split
        all_goals exact kept
  | charging frame credited additional =>
    simp only [step, frameCharged]
    split <;> exact kept
  | releasing bytes =>
    simp only [step, releaseLease]
    by_cases covered : bytes ≤ account.reserved
    · rw [if_pos covered]
      exact kept
    · rw [if_neg covered]
      exact kept
  | answering answer =>
    simp only [step]
    cases (caller.next state answer).2 with
    | reserve bytes =>
      simp only [startCall, reserveBodyBytes]
      split <;> exact kept
    | _ => exact kept
  | _ => exact kept

/-- A run without an exception loses no credit. -/
theorem run_lost (solvent : Solvent caller backing)
    (settled : Settled (world.account, world.phase))
    (backed : Backed (backing world.caller) world.account world.phase)
    (kept : world.account.lost = 0) {events : List Event} (calm : ∀ event ∈ events, event = .resume) :
    (run caller world events).account.lost = 0 := by
  induction events generalizing world with
  | nil => exact kept
  | cons event rest ih =>
    obtain rfl := calm event List.mem_cons_self
    exact ih (step_settled settled _) (step_backed solvent backed _) (step_lost settled backed kept)
      fun later isLater => calm later (List.mem_cons_of_mem _ isLater)

end Solvent

end UniApi.Middleware
