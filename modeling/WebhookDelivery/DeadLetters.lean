import WebhookDelivery.Copies
import WebhookDelivery.Fencing

/-!
# Dead jobs and the dead-letter queue

`process` writes `dead` to the row before it moves the id to the dead-letter
queue.  A worker that claims a job whose row already says so takes it for
finished and discards the id.  This file shows that dead jobs are lost in no
other way.
-/

namespace WebhookDelivery

open Concurrency

/-- Every dead job that no running replay holds is in `ready`, `inflight` or
`dlq`; once nobody claims it any more and it is drained from `ready`, it is in
`dlq`. -/
def DeadKept (state : State) : Prop :=
  ∀ jobId row, state.store.db.jobs jobId = some row → row.state = .dead →
    ¬state.Replaying jobId →
      let places := state.places jobId
      0 < places.ready + places.inflight + places.dlq ∧
        (places.ready = 0 → places.inflight = 0 → places.dlq = 1)

/-- Steps in which overruled workers are quiet, no replay is interrupted, and
no worker claims a job that is already dead. -/
def KeepsDead (state : State) (action : Action) : Prop :=
  Quiet state action ∧ ¬BreaksReplay state action ∧
    ¬ClaimsDead state action

instance (state : State) (action : Action) :
    Decidable (KeepsDead state action) :=
  inferInstanceAs (Decidable (_ ∧ _ ∧ _))

/-- Every dead job is retained. -/
structure DeadInvariant (state : State) : Prop where
  rows : RowInvariant False state
  replaysOn : state.ReplaysOn
  kept : ∀ {jobId row}, state.store.db.jobs jobId = some row →
    row.state = .dead → state.Retained jobId

namespace DeadInvariant

theorem initial : DeadInvariant State.initial where
  rows := .initial
  replaysOn := .initial
  kept found := by cases found

theorem deadKept {state : State} (invariant : DeadInvariant state) :
    DeadKept state := by
  intro jobId row found dead idle
  have present := (invariant.kept found dead).resolve_left idle
  have once := (invariant.rows.queue.custody jobId).sound.once
  have settled : (state.places jobId).delayed ≠ 1 := by
    intro delayed
    have queued := (invariant.rows.agrees found).delayed delayed
    rw [dead] at queued
    cases queued
  have atMost := Redis.delayed_le_one state.store.redis jobId
  unfold Places.copies at once present
  unfold State.places at *
  exact ⟨by omega, fun _ _ => by omega⟩

variable {deployment : Deployment} {before after : State} {action : Action}

theorem step (invariant : DeadInvariant before)
    (keepsDead : KeepsDead before action)
    (taken : WebhookDelivery.step deployment before action = some after) :
    DeadInvariant after where
  rows := invariant.rows.step keepsDead.1 keepsDead.2.2 taken
  replaysOn := invariant.replaysOn.step keepsDead.2.1 taken
  kept {jobId row} stored dead := by
    have unfinished : ¬row.Finished False := by
      rintro (succeeded | ⟨_, never⟩)
      · rw [dead] at succeeded
        cases succeeded
      · exact never
    refine retained_of_step invariant.rows invariant.replaysOn keepsDead.1
      keepsDead.2.1 taken stored (fun queued => ?_)
      (fun was => invariant.kept was dead) unfinished
    rw [dead] at queued
    cases queued

end DeadInvariant

/-- In every run whose overruled workers are quiet, whose replays are not
interrupted and in which no worker claims a job that is already dead, no dead
job is lost. -/
theorem dead_kept_of_no_dead_claimed (deployment : Deployment)
    (actions : List Action)
    (keepDead : ∀ transition ∈
      transitions (step deployment) State.initial actions,
        KeepsDead transition.before transition.action) :
    ∀ transition ∈ transitions (step deployment) State.initial actions,
      DeadKept transition.after := by
  intro transition member
  exact (invariant_of_transitions DeadInvariant
    (fun _ _ _ held allowed taken => held.step allowed taken)
    DeadInvariant.initial keepDead transition member).2.deadKept

/-! ## A crash before the dead-letter script -/

/-- A job is dead-lettered and its replay begins. -/
def deadLetteredAndReplayed : List Action :=
  enqueueOne ++ deliverOnce 1 400 7 ++ [.start 2 (.replay 1)] ++ calls 2 2

theorem dead_kept_of_no_dead_claimed_deadLettered :
    (run (step {}) State.initial deadLetteredAndReplayed).isSome ∧
      ∀ transition ∈
        transitions (step {}) State.initial deadLetteredAndReplayed,
          DeadKept transition.after :=
  ⟨by decide +kernel, dead_kept_of_no_dead_claimed {} deadLetteredAndReplayed
    (by decide +kernel)⟩

/-- Worker 1 crashes between its update to `dead` and its dead-letter script;
the reaper returns the job, worker 2 claims it and reads the dead row. -/
def crashedBeforeDeadLetter : List Action :=
  enqueueOne ++ deliverOnce 1 400 6 ++
    [.crash 1, .reap 60000 100, .start 2 .worker] ++ calls 2 4

/-- The `ack` of worker 2 discards the last copy of a dead job that never
reached the dead-letter queue. -/
theorem ack_discards_dead_job :
    ¬∀ transition ∈ transitions (step {}) State.initial
        (crashedBeforeDeadLetter ++ [.call 2 {}]),
      DeadKept transition.after := by
  intro kept
  have evaluated : (run (step {}) State.initial crashedBeforeDeadLetter).map
      (fun _ => ()) = some () := by
    decide +kernel
  have evaluatedAfter : (run (step {}) State.initial
      (crashedBeforeDeadLetter ++ [.call 2 {}])).map (fun state =>
        ((state.store.db.jobs 2).map JobRow.state, state.places 2,
          state.history.any fun event =>
            (Claim.replaying 2).madeBy event.call)) =
      some (some .dead,
        { ready := 0, inflight := 0, leases := 0, delayed := 0, dlq := 0 },
        false) := by
    decide +kernel
  obtain ⟨transition, member, _, _, atLast⟩ :=
    exists_last_transition crashedBeforeDeadLetter (.call 2 {}) _ _ evaluated
      evaluatedAfter
  have accounted := (invariant_of_transitions State.Accounted
    (fun _ _ _ held (_ : True) taken => held.step taken)
    State.Accounted.initial (fun _ _ => trivial) transition member).2
  simp only [Prod.mk.injEq] at atLast
  obtain ⟨dead, places, unpopped⟩ := atLast
  obtain ⟨row, stored, dead⟩ := Option.map_eq_some_iff.mp dead
  have idle : ¬transition.after.Replaying 2 := by
    rintro ⟨pid, replaying⟩
    obtain none | ⟨event, member, _, made⟩ := accounted pid
    · rw [replaying] at none
      cases none
    · rw [List.any_eq_false] at unpopped
      exact unpopped event member (replaying ▸ made)
  have present := (kept transition member 2 row stored dead idle).1
  rw [places] at present
  cases present

end WebhookDelivery
