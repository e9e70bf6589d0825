/-
**A lane of the body-memory wait queue does not idle while somebody waits in it.**

* `promote_busy`: behind `_promote` a lane has a turn, has no waiters, or may not promote;
* `step_busy`: every step keeps this of both lanes;
* `queued_for_turn`: why a waiter of a reachable queue is still queued.
-/

import UniApi.Admission.TenantTurns

namespace UniApi.Admission

namespace TenantTurns

/-- A lane that may promote has a turn, or nobody waits in it. -/
def Busy (lane : Lane) : Prop :=
  lane.promotionEnabled = true → lane.activeTurn = true ∨ ∀ tenant, lane.queues.lookup tenant = none

section Queue

variable {queue : BodyWaitQueue}

theorem promote_busy (sound : queue.Sound) {promotes : Bool}
    (busy : ∀ other, other ≠ promotes → Busy (queue.lane other)) (small : Bool) :
    Busy ((queue.promote promotes).lane small) := by
  by_cases same : small = promotes
  · subst same
    rcases BodyWaitQueue.promote_spec sound small with
      ⟨active | off, same⟩ | ⟨-, -, without, emptied⟩ | ⟨-, id, turns⟩
    · rw [same]
      exact fun _ => Or.inl active
    · rw [same]
      exact fun enabled => absurd (off.symm.trans enabled) Bool.false_ne_true
    · rw [emptied, BodyWaitQueue.setLane_lane, if_pos rfl]
      exact fun _ => Or.inr without
    · obtain ⟨stale, tenant, ring, rest, -, -, -, after⟩ := turns.first
      rw [after, BodyWaitQueue.give_lane]
      exact fun _ => Or.inl rfl
  · rw [promoted_other sound same]
    exact busy small same

/-- A switch of one lane, and the promotion behind it. -/
theorem switched_busy (sound : queue.Sound) {promotes : Bool} (activeTurn promotionEnabled : Bool)
    (busy : ∀ other, other ≠ promotes → Busy (queue.lane other)) (small : Bool) :
    Busy (((queue.setLane promotes
      { queue.lane promotes with activeTurn, promotionEnabled }).promote promotes).lane small) := by
  refine promote_busy (sound.switch promotes activeTurn promotionEnabled) (fun other different => ?_) small
  rw [BodyWaitQueue.setLane_lane, if_neg different]
  exact busy other different

end Queue

namespace System

variable {system : System}

theorem giveUp_busy (sound : system.Sound) (busy : ∀ small, Busy (system.queue.lane small)) (id : Nat)
    (small : Bool) : Busy ((system.giveUp id).queue.lane small) := by
  unfold giveUp
  split
  · rename_i waiting
    show Busy ((system.queue.remove id).lane small)
    cases state : (system.queue.waiter id).state with
    | abandoned => exact absurd state (sound.waiting id waiting)
    | granted =>
      have given : system.Outstanding (system.queue.waiter id).smallLane id := ⟨rfl, state, Or.inl waiting⟩
      rw [BodyWaitQueue.remove_granted state (sound.active given)]
      exact switched_busy (sound.queue.abandon state) _ _ (fun other _ => busy other) small
    | queued =>
      rw [BodyWaitQueue.remove_queued state]
      have gone := BodyWaitQueue.dequeue_spec sound.queue state
      obtain ⟨ids, found, -, own⟩ := gone.lane
      by_cases here : small = (system.queue.waiter id).smallLane
      · rw [here, own]
        -- the waiter was queued, so the lane had a turn
        intro enabled
        refine Or.inl ((busy _ enabled).resolve_right fun without => ?_)
        rw [without] at found
        cases found
      · rw [gone.others small here]
        exact busy small
  · exact busy small

/-- **One step** leaves no lane idle. -/
theorem step_busy (sound : system.Sound) (busy : ∀ small, Busy (system.queue.lane small)) (event : Event)
    (small : Bool) : Busy ((system.step event).queue.lane small) := by
  cases event with
  | waitTurn tenantKey lane timeoutPositive =>
    unfold step BodyWaitQueue.waitTurn
    cases timeoutPositive with
    | false => exact busy small
    | true =>
      dsimp only
      rw [if_neg (by exact Bool.false_ne_true)]
      split
      · rename_i id after called
        split at called
        · cases called
        · cases called
          refine promote_busy (BodyWaitQueue.enqueue_sound sound.queue _ lane) (fun other different => ?_) small
          show Busy ((BodyWaitQueue.setLane _ _ _).lane other)
          rw [BodyWaitQueue.setLane_lane, if_neg different]
          exact busy other
      · rename_i after called
        split at called
        · cases called
          exact busy small
        · cases called
  | returned id =>
    unfold step
    dsimp only
    split
    · exact busy small
    · exact busy small
  | timedOut id =>
    unfold step
    dsimp only
    split
    · exact giveUp_busy (sound.counters (system.queue.timeouts + 1) system.queue.queueFull) busy id small
    · exact busy small
  | cancelled id => exact giveUp_busy sound busy id small
  | finishTurn id =>
    show Busy ((system.finish id).queue.lane small)
    unfold finish
    split
    · rename_i running
      have given : system.Outstanding (system.queue.waiter id).smallLane id :=
        ⟨rfl, sound.running id running, Or.inr running⟩
      rw [BodyWaitQueue.finishTurn_eq _ (sound.active given), Option.getD_some]
      exact switched_busy sound.queue _ _ (fun other _ => busy other) small
    · exact busy small
  | blockUntilRelease lane =>
    show Busy ((BodyWaitQueue.setLane _ _ _).lane small)
    rw [BodyWaitQueue.setLane_lane]
    split
    · exact nofun
    · exact busy small
  | notifyMemoryReleased =>
    have first := sound.queue.switch true (system.queue.lane true).activeTurn true
    exact switched_busy (BodyWaitQueue.promote_sound first true) _ _
      (fun other _ => switched_busy sound.queue _ _ (fun other _ => busy other) other) small

theorem run_busy (limit : Option Nat) (events : List Event) (small : Bool) :
    Busy ((run limit events).queue.lane small) := by
  have start : (fresh limit).Sound ∧ ∀ small, Busy ((fresh limit).queue.lane small) :=
    ⟨fresh_sound limit, fun _ _ => Or.inr fun _ => rfl⟩
  exact (List.foldlRecOn (motive := fun system => system.Sound ∧ ∀ small, Busy (system.queue.lane small))
    events step start fun _ kept event _ => ⟨step_sound kept.1 event, step_busy kept.1 kept.2 event⟩).2 small

/-- **Why a waiter is still queued**: its lane may not promote before bytes are released, or another
waiter, and only that one, has the turn of the lane and has not given it back. -/
theorem queued_for_turn (limit : Option Nat) (events : List Event) {id : Nat}
    (queued : ((run limit events).queue.waiter id).state = .queued) :
    ((run limit events).queue.lane ((run limit events).queue.waiter id).smallLane).promotionEnabled = false ∨
      ∃ holder, holder ≠ id ∧ ∀ other,
        (run limit events).Outstanding ((run limit events).queue.waiter id).smallLane other ↔
          other = holder := by
  have sound := run_sound limit events
  obtain ⟨ids, found, -⟩ := sound.queue.complete id queued
  cases enabled : ((run limit events).queue.lane
      ((run limit events).queue.waiter id).smallLane).promotionEnabled with
  | false => exact Or.inl rfl
  | true =>
    have active := (run_busy limit events _ enabled).resolve_right fun without => by
      rw [without] at found
      cases found
    rcases sound.turn ((run limit events).queue.waiter id).smallLane with ⟨idle, -⟩ | ⟨-, holder, only⟩
    · exact absurd (idle.symm.trans active) Bool.false_ne_true
    · refine Or.inr ⟨holder, ?_, only⟩
      rintro rfl
      exact absurd (((only holder).mpr rfl).2.1.symm.trans queued) nofun

/-- `b` has its turn behind `a`; of the others of `a`, one gave up, and bytes were released. -/
def takingTurns : List Event :=
  [.waitTurn "a" true true, .returned 0, .waitTurn "b" true true, .waitTurn "a" true true,
    .waitTurn "a" true true, .timedOut 2, .blockUntilRelease true, .finishTurn 0,
    .notifyMemoryReleased, .returned 1]

/-- The last waiter of `a` waits for the turn of another one. -/
theorem queued_for_turn_last :
    ∃ holder, holder ≠ 3 ∧ ∀ other, (run none takingTurns).Outstanding true other ↔ other = holder := by
  have lane : ((run none takingTurns).queue.waiter 3).smallLane = true := by decide
  have enabled : ((run none takingTurns).queue.lane true).promotionEnabled = true := by decide
  rcases @queued_for_turn none takingTurns 3 (by decide) with blocked | held
  · rw [lane, enabled] at blocked
    cases blocked
  · rw [lane] at held
    exact held

end System

end TenantTurns

end UniApi.Admission
