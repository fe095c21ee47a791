import WebhookDelivery.Replays
import WebhookDelivery.RowInvariant

/-!
# Where the last copy of a job goes

An unfinished job that has a copy in the queue structures keeps one, or is
held by a replay.  The only calls that take the last copy of a job away are
the `ack` of its owner, which follows a finished row, and the `RPOP` of a
replay.
-/

namespace WebhookDelivery

open Concurrency

/-- A copy of the job is in the queue structures, or a running replay holds
it. -/
def State.Retained (state : State) (jobId : JobId) : Prop :=
  state.Replaying jobId ∨ 0 < (state.places jobId).copies

/-- A row on which a worker that keeps to the row discipline runs `ack`. -/
def JobRow.Finished (claimsDead : Prop) (row : JobRow) : Prop :=
  row.state = .succeeded ∨ row.state = .dead ∧ claimsDead

variable {claimsDead : Prop} {deployment : Deployment}
  {before after : State} {action : Action} {jobId : JobId} {row : JobRow}

private theorem copies_of_performed (rows : RowInvariant claimsDead before)
    (quiet : Quiet before action) (choice : Choice) {pid : Pid} {call : Call}
    (performs : action.performer? = some pid)
    (pending : before.pending? pid = some call)
    (was : before.store.db.jobs jobId = some row)
    (unfinished : ¬row.Finished claimsDead)
    (present : 0 < (before.places jobId).copies)
    (stays : ¬(call = .popDlq ∧ before.store.redis.popDlq.1 = some jobId)) :
    0 < (call.moves jobId (before.places jobId)
      (exec deployment choice call before.store).1).copies := by
  have permits := rows.permits pending
  have queue := rows.queue.permits pending
  by_cases about :
      call.target? (exec deployment choice call before.store).1 = some jobId
  swap
  · rw [Call.moves_of_target about]
    exact present
  cases call with
  | ack id =>
      cases about
      rcases queue with reserved | superseded
      · exact absurd (RowInvariant.all_of_claim (by rw [reserved]; rfl)
          (permits reserved) was) unfinished
      · rw [Call.moves_of_findsNothing (rows.queue.custody jobId).sound rfl
          (quiet.1 (jobId, .ack jobId) (overruledRelease?_eq_some.mpr
            ⟨pid, performs, pending, rfl, superseded⟩))]
        exact present
  | popDlq =>
      simp only [exec] at about
      cases popped : before.store.redis.popDlq.1 with
      | none =>
          rw [popped] at about
          cases about
      | some id =>
          rw [popped] at about
          cases about
          exact absurd ⟨rfl, popped⟩ stays
  | brpoplpush =>
      simp only [exec] at about ⊢
      cases popped : before.store.redis.brpoplpush.1 with
      | none =>
          rw [popped] at about
          cases about
      | some id =>
          rw [popped] at about
          cases about
          simp only [Call.moves, Places.copies, if_true]
          omega
  | insertJob input => exact present
  | zaddLease id expiry =>
      cases about
      simp only [Call.moves, if_true]
      exact present
  | push id | pushDelayed id runAtMs | retryLater id runAtMs
  | deadLetter id =>
      cases about
      simp only [Call.moves, Places.copies, if_true]
      omega
  | _ => cases about

/-- An unfinished job that a step leaves alone is retained. -/
private theorem retained_of_kept (rows : RowInvariant claimsDead before)
    (replaysOn : before.ReplaysOn) (quiet : Quiet before action)
    (unbroken : ¬BreaksReplay before action)
    (taken : step deployment before action = some after)
    (was : before.store.db.jobs jobId = some row)
    (unfinished : ¬row.Finished claimsDead)
    (retained : before.Retained jobId) : after.Retained jobId := by
  rcases retained with ⟨pid, replaying⟩ | present
  · rcases replaying_of_step rows.queue replaysOn unbroken taken replaying
      with still | ⟨performs, pushes | ⟨_, none⟩⟩
    · exact .inl ⟨pid, still⟩
    · obtain ⟨choice, process, next, rescue, resumed, _, _, _, rfl⟩ :=
        performed_of_performer? taken performs pushes
      right
      have moved := exec_places deployment choice (.push jobId) before.store
        jobId
      simp only [State.places, State.perform_store, moved, Call.moves,
        Places.copies, if_true]
      omega
    · rw [was] at none
      cases none
  · cases steps_of_step taken with
    | @performed _ pid choice process call next rescue resumed found running
        connected resumes =>
        by_cases takes :
            call = .popDlq ∧ before.store.redis.popDlq.1 = some jobId
        · obtain ⟨rfl, popped⟩ := takes
          have claimed : (before.claim pid).after .popDlq
              (exec deployment choice .popDlq before.store).1 =
                .replaying jobId := by
            simp only [exec, popped]
            rfl
          refine .inl ⟨pid, ?_⟩
          rw [claim_of_performed replaysOn unbroken found running resumes
            (by rw [claimed]; rfl), claimed]
        · right
          rw [State.places, State.perform_store, exec_places]
          exact copies_of_performed rows quiet choice resumes.performer?.1
            (State.pending?_of_running found running) was unfinished present
            takes
    | promoted =>
        right
        simp only [State.places, Store.withRedis, Redis.places_promoteScript]
          at present ⊢
        split
        · simp only [Places.copies]
          omega
        · exact present
    | reaped =>
        right
        simp only [State.places, State.reap, Store.withRedis,
          Redis.places_reapScript] at present ⊢
        split
        · simp only [Places.copies]
          omega
        · exact present
    | start | failed | crashed | shutdown | ticked | registered | deleted =>
        exact .inr present

/-- Unless its row is new, an unfinished job stays retained, whatever the step
does to its row. -/
theorem retained_of_step (rows : RowInvariant claimsDead before)
    (replaysOn : before.ReplaysOn) (quiet : Quiet before action)
    (unbroken : ¬BreaksReplay before action)
    (taken : step deployment before action = some after)
    (stored : after.store.db.jobs jobId = some row)
    (known : row.state = .queued → jobId ∈ before.store.db.issued)
    (retained : before.store.db.jobs jobId = some row →
      before.Retained jobId)
    (unfinished : ¬row.Finished claimsDead) : after.Retained jobId := by
  have custody := rows.queue.custody jobId
  cases row_of_step rows.queue quiet taken stored with
  | kept was =>
      exact retained_of_kept rows replaysOn quiet unbroken taken was
        unfinished (retained was)
  | inserted _ _ unissued _ new => exact absurd (known (new ▸ rfl)) unissued
  | updated pid update old now performs pending works =>
      obtain ⟨choice, process, next, rescue, resumed, _, _, _, rfl⟩ :=
        performed_of_performer? taken performs pending
      right
      have moved := exec_places deployment choice (.updateState update)
        before.store jobId
      rw [State.places, State.perform_store, moved]
      show 0 < (before.places jobId).copies
      unfold Places.copies
      rcases works with reserved | ⟨_, waits, _⟩
      · have claimed := (custody.fits_of reserved rfl).2.1
        omega
      · omega
  | reset pid old now performs pending replaying was =>
      rcases replaying_of_step rows.queue replaysOn unbroken taken replaying
        with still | ⟨_, pushes | ⟨_, none⟩⟩
      · exact .inl ⟨pid, still⟩
      · rw [pending] at pushes
        cases pushes
      · rw [was] at none
        cases none

end WebhookDelivery
