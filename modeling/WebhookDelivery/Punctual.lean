import WebhookDelivery.RowInvariant

/-!
# Workers that do not outlive their leases

In runs in which the reaper meets the lease of a worker only after the worker
has crashed or given up, no claim is ever overruled.
-/

namespace WebhookDelivery

open Concurrency

/-- The reaper meets the lease of a worker that still works on its job. -/
def Overrules (state : State) : Action → Prop
  | .reap nowMs batchSize =>
      ∃ jobId ∈ state.store.redis.leases.rangeByScore nowMs batchSize,
        ∃ pid, state.claim pid = .reserved jobId
  | _ => False

/-- No claim has been overruled. -/
def State.Unoverruled (state : State) : Prop :=
  ∀ pid jobId, state.claim pid ≠ .superseded jobId

variable {deployment : Deployment} {before after : State} {action : Action}

/-- A claim is overruled by the reaper alone. -/
theorem Claim.after_unoverruled {claim : Claim} {call : Call}
    {outcome : Except AppError call.Reply}
    (unoverruled : ∀ jobId, claim ≠ .superseded jobId) (jobId : JobId) :
    claim.after call outcome ≠ .superseded jobId := by
  unfold Claim.after
  split <;> first | exact unoverruled jobId | simp

namespace State.Unoverruled

theorem initial : State.initial.Unoverruled := by
  intro pid jobId superseded
  cases superseded

theorem step (unoverruled : before.Unoverruled)
    (punctual : ¬Overrules before action)
    (taken : WebhookDelivery.step deployment before action = some after) :
    after.Unoverruled := by
  intro pid jobId
  have updated : ∀ {actor process},
      (∀ jobId, process.claim ≠ .superseded jobId) →
        (before.setProcess actor process).claim pid ≠ .superseded jobId := by
    intro actor process own
    by_cases same : pid = actor
    · rw [same, State.claim_setProcess_self]
      exact own jobId
    · rw [State.claim_setProcess_of_ne _ same]
      exact unoverruled pid jobId
  cases steps_of_step taken with
  | start unused =>
      refine updated fun other => ?_
      rcases Process.proceed_claim with same | none
      · rw [Process.spawn, same]
        simp
      · rw [Process.spawn, none]
        simp
  | @performed _ actor choice process call next rescue resumed found running
      connected resumes =>
      by_cases same : pid = actor
      · subst same
        rw [State.claim_of_found (State.perform_self ..)]
        have old : ∀ jobId, process.claim ≠ .superseded jobId := by
          rw [← State.claim_of_found found]
          exact unoverruled pid
        rcases QueueInvariant.claim_of_resumes resumes
            (exec deployment choice call before.store).1 with now | none
        · rw [now]
          exact Claim.after_unoverruled old jobId
        · rw [none]
          simp
      · rw [State.claim_congr (State.perform_of_ne _ _ _ _ _ _ same)]
        exact unoverruled pid jobId
  | @failed actor failure process call next rescue found running =>
      refine updated fun other => ?_
      have old := unoverruled actor other
      rw [State.claim_of_found found] at old
      rcases Process.proceed_claim with same | none
      · rw [Process.failed, same]
        rcases Claim.lost_cases process.claim with kept | gone
        · rw [kept]
          exact old
        · rw [gone]
          simp
      · rw [Process.failed, none]
        simp
  | crashed found live =>
      refine updated fun other => ?_
      simp [Process.crash]
  | @shutdown actor process found =>
      refine updated fun other => ?_
      rw [Process.shutdown_claim, ← State.claim_of_found found]
      exact unoverruled actor other
  | @reaped nowMs batchSize =>
      rw [State.claim_reap]
      intro overruled
      have old := unoverruled pid
      cases claimed : before.claim pid with
      | reserved id =>
          rw [claimed] at overruled
          simp only [Claim.reaped] at overruled
          split at overruled
          next expired => exact punctual ⟨id, expired, pid, claimed⟩
          · cases overruled
      | superseded id => exact old id claimed
      | none | inserted _ | popped _ | replaying _ =>
          rw [claimed] at overruled
          cases overruled
  | promoted | ticked | registered | deleted => exact unoverruled pid jobId

/-- Where no claim has been overruled, every step is quiet. -/
theorem quiet {state : State} (unoverruled : state.Unoverruled)
    (action : Action) : Quiet state action := by
  constructor
  · intro release overruled
    obtain ⟨pid, _, _, _, superseded⟩ :=
      overruledRelease?_eq_some.mp (Option.mem_def.mp overruled)
    exact absurd superseded (unoverruled pid _)
  · intro call overruled
    simp only [overruledCall?, Option.mem_def, Option.bind_eq_bind,
      Option.bind_eq_some_iff] at overruled
    obtain ⟨pid, _, pending, _, superseded⟩ := overruled
    split at superseded
    next jobId claimed => exact absurd claimed (unoverruled pid jobId)
    · cases superseded

end State.Unoverruled

/-- The process of a call still works on a job whose lease the reaper meets. -/
def Event.Overruled (state : State) (event : Event) : Action → Prop
  | .reap nowMs batchSize =>
      ∃ jobId ∈ state.store.redis.leases.rangeByScore nowMs batchSize,
        state.claim event.pid = .reserved jobId
  | _ => False

instance (state : State) (event : Event) :
    DecidablePred (event.Overruled state) :=
  fun action => by
    induction action using Action.casesOn <;> unfold Event.Overruled <;> infer_instance

/-- Whoever works on a job has made a call. -/
theorem not_overrules_of_accounted {state : State} {action : Action}
    (accounted : state.Accounted)
    (punctual : ∀ event ∈ state.history, ¬event.Overruled state action) :
    ¬Overrules state action := by
  cases action with
  | reap nowMs batchSize =>
      rintro ⟨jobId, expired, pid, claimed⟩
      rcases accounted pid with none | ⟨event, member, rfl, _⟩
      · rw [claimed] at none
        cases none
      · exact punctual event member ⟨jobId, expired, claimed⟩
  | _ => exact id

/-- In a run, the processes that the reaper could overrule are those that have
made a call. -/
theorem punctual_of_history {actions : List Action}
    (punctual : ∀ transition ∈
      transitions (step deployment) State.initial actions,
        ∀ event ∈ transition.before.history,
          ¬event.Overruled transition.before transition.action) :
    ∀ transition ∈ transitions (step deployment) State.initial actions,
      ¬Overrules transition.before transition.action := by
  intro transition member
  have accounted := (invariant_of_transitions State.Accounted
    (fun _ _ _ accounted (_ : True) taken => accounted.step taken)
    State.Accounted.initial (fun _ _ => trivial) transition member).1
  exact not_overrules_of_accounted accounted (punctual transition member)

end WebhookDelivery
