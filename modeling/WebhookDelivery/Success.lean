import WebhookDelivery.RowInvariant
import WebhookDelivery.Fencing

/-!
# Success is final

No statement that writes a row looks at the state it overwrites.  A succeeded
row is nevertheless final as long as workers that outlive their lease keep out
of the way of the next owner of the job.
-/

namespace WebhookDelivery

open Concurrency

/-- The call delivers a job that has been read as succeeded. -/
def Call.redelivers (state : State) : Call → Bool
  | .fetch request => state.readSucceeded request.jobId
  | _ => false

/-- No succeeded row changes its state, and no job is delivered that has been
read as succeeded. -/
def SuccessKept (before : State) (action : Action) (after : State) : Prop :=
  (∀ jobId old row, before.store.db.jobs jobId = some old →
    old.state = .succeeded → after.store.db.jobs jobId = some row →
      row.state = .succeeded) ∧
    ∀ call ∈ performedCall? before action, call.redelivers before = false

/-- A request goes out only while its job has a row that is not succeeded. -/
def Call.Wanted (state : State) : Call → Prop
  | .fetch request => (state.store.db.jobs request.jobId).any (fun row =>
      decide (row.state ≠ .succeeded)) = true
  | _ => True

instance (state : State) : DecidablePred (Call.Wanted state) :=
  fun call => by
    induction call using Call.casesOn <;> unfold Call.Wanted <;>
      infer_instance

/-- Steps in which an overruled worker finds nothing to release, writes a row
only out of everybody's way, and delivers a job only while its row is not
succeeded. -/
def KeepsAway (state : State) (action : Action) : Prop :=
  Quiet state action ∧
    ∀ call ∈ overruledCall? state action, call.Wanted state

instance (state : State) (action : Action) :
    Decidable (KeepsAway state action) :=
  inferInstanceAs (Decidable (_ ∧ ∀ call ∈ overruledCall? state action,
    call.Wanted state))

variable {deployment : Deployment} {before after : State} {action : Action}

theorem redelivers_of_performed (invariant : RowInvariant True before)
    (keepsAway : KeepsAway before action) {call : Call}
    (performed : performedCall? before action = some call) :
    call.redelivers before = false := by
  obtain ⟨pid, performs, pending⟩ := Option.bind_eq_some_iff.mp performed
  have permits := invariant.permits pending
  cases call with
  | fetch request =>
      obtain ⟨reserved | superseded, unread⟩ := permits
      · have about : (before.claim pid).job? = some request.jobId :=
          congrArg Claim.job? reserved
        exact (rowView_read about).symm.trans (unread reserved).1
      · have wanted : (Call.fetch request).Wanted before := keepsAway.2 _
          (overruledCall?_of_superseded performs pending superseded)
        obtain ⟨row, stored, undelivered⟩ :=
          (Option.any_eq_true _ _).mp wanted
        by_contra read
        exact of_decide_eq_true undelivered ((invariant.finished
          (Bool.eq_true_of_not_eq_false read)).2 row stored)
  | _ => rfl

/-- In every run in which overruled workers keep away, success is final. -/
theorem success_kept_of_overruled_keep_away (deployment : Deployment)
    (actions : List Action)
    (keepAway : ∀ transition ∈
      transitions (step deployment) State.initial actions,
        KeepsAway transition.before transition.action) :
    ∀ transition ∈ transitions (step deployment) State.initial actions,
      SuccessKept transition.before transition.action transition.after := by
  intro transition member
  have allowed := keepAway transition member
  have taken := step_of_mem_transitions member
  have invariant := (invariant_of_transitions (RowInvariant True)
    (fun _ _ _ held allowed taken => held.step allowed.1 (fun _ => trivial) taken)
    RowInvariant.initial keepAway transition member).1
  refine ⟨?_, fun call performed =>
    redelivers_of_performed invariant allowed performed⟩
  intro jobId old row was succeeded stored
  exact invariant.succeeded_of_step allowed.1 taken was succeeded stored

/-! ## A slow worker against a fast one -/

/-- The lease of worker 1 ends before it writes `succeeded`, but worker 2
claims the job only afterwards. -/
def outlivedOutOfTheWay : List Action :=
  enqueueOne ++ deliverOnce 1 200 4 ++ [.reap 60000 100] ++ calls 1 2 ++
    [.start 2 .worker] ++ calls 2 5

theorem success_kept_of_overruled_keep_away_outOfTheWay :
    (run (step {}) State.initial outlivedOutOfTheWay).isSome ∧
      ∀ transition ∈ transitions (step {}) State.initial outlivedOutOfTheWay,
        SuccessKept transition.before transition.action transition.after :=
  ⟨by decide +kernel, success_kept_of_overruled_keep_away {}
    outlivedOutOfTheWay (by decide +kernel)⟩

/-- Worker 1 is about to write `queued` after a failed delivery when its lease
ends, and worker 2 delivers the job with success. -/
def outrunBySuccess : List Action :=
  enqueueOne ++ deliverOnce 1 500 7 ++
    [.reap 60000 100] ++ deliverOnce 2 200 5

/-- The late update of worker 1 takes the job out of `succeeded`. -/
theorem late_update_overwrites_success :
    ¬∀ actions,
      ∀ transition ∈ transitions (step {}) State.initial actions,
        SuccessKept transition.before transition.action transition.after := by
  intro kept
  have evaluated : (run (step {}) State.initial outrunBySuccess).map
      (fun state => (state.store.db.jobs 2).map JobRow.state) =
        some (some .succeeded) := by
    decide +kernel
  have evaluatedAfter : (run (step {}) State.initial
      (outrunBySuccess ++ [.call 1 {}])).map
        (fun state => (state.store.db.jobs 2).map JobRow.state) =
          some (some .queued) := by
    decide +kernel
  obtain ⟨⟨before, _, after⟩, member, rfl, atFirst, atLast⟩ :=
    exists_last_transition outrunBySuccess (.call 1 {}) _ _ evaluated
      evaluatedAfter
  obtain ⟨old, was, succeeded⟩ := Option.map_eq_some_iff.mp atFirst
  obtain ⟨row, stored, queued⟩ := Option.map_eq_some_iff.mp atLast
  have same := (kept _ _ member).1 2 old row was succeeded stored
  rw [queued] at same
  cases same

end WebhookDelivery
