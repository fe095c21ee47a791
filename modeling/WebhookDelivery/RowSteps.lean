import WebhookDelivery.RowDiscipline
import WebhookDelivery.QueueInvariant

/-!
# How rows change

A row is written by the process that holds its job, or by a worker that the
reaper has overruled.  As long as the latter keeps out of the way, a worker
whose claim is in force finds its row as it left it.
-/

namespace WebhookDelivery

open Concurrency

/-! ## How calls change rows -/

/-- A call leaves the row of a job alone, or it is one of the three statements
that write it. -/
theorem exec_jobs_cases (deployment : Deployment) (choice : Choice)
    (call : Call) (store : Store) (jobId : JobId) :
    (exec deployment choice call store).2.db.jobs jobId =
        store.db.jobs jobId ∨
      (∃ update old, call = .updateState update ∧ update.id = jobId ∧
        store.db.jobs jobId = some old ∧
        (update.apply choice.now old).attempts ≤ old.maxAttempts ∧
        (exec deployment choice call store).2.db.jobs jobId =
          some (update.apply choice.now old)) ∨
      (∃ old, call = .resetForReplay jobId ∧
        store.db.jobs jobId = some old ∧
        (exec deployment choice call store).2.db.jobs jobId =
          some (old.reset choice.now)) ∨
      ∃ input, call = .insertJob input ∧ jobId ∉ store.db.issued ∧
        jobId ∈ (exec deployment choice call store).2.db.issued ∧
        ∃ payload, deployment.jsonb input.payload = some payload ∧
          (exec deployment choice call store).2.db.jobs jobId =
            some (input.newRow deployment.maxAttempts jobId choice.now
              payload) := by
  cases call with
  | insertJob input =>
      simp only [exec]
      rcases store.db.insertJob_cases deployment.jsonb deployment.maxAttempts
        choice.uuid choice.now input with
        ⟨failure, raised⟩ | ⟨payload, kept, unissued, _, done⟩
      · rw [raised]
        exact .inl rfl
      · rw [done]
        by_cases same : jobId = choice.uuid
        · subst same
          exact .inr (.inr (.inr ⟨input, rfl, unissued, List.mem_cons_self,
            payload, kept, (store.db.setJob_jobs _ _).trans (if_pos rfl)⟩))
        · exact .inl ((store.db.setJob_jobs _ _).trans (if_neg same))
  | updateState update =>
      simp only [exec]
      rcases store.db.updateState_cases choice.now update with
        ⟨_, done⟩ | ⟨old, found, ⟨failure, done⟩ | ⟨within, done⟩⟩
      · rw [done]
        exact .inl rfl
      · rw [done]
        exact .inl rfl
      · rw [done]
        have stored : old.id = update.id := store.db.keyed found
        have key : (update.apply choice.now old).id = update.id := stored
        by_cases same : jobId = update.id
        · subst same
          exact .inr (.inl ⟨update, old, rfl, rfl, found, within,
            (store.db.setJob_jobs _ _).trans (if_pos key.symm)⟩)
        · exact .inl ((store.db.setJob_jobs _ _).trans
            (if_neg (key ▸ same)))
  | resetForReplay id =>
      simp only [exec]
      rcases store.db.resetForReplay_cases choice.now id with
        ⟨_, done⟩ | ⟨old, found, done⟩
      · rw [done]
        exact .inl rfl
      · rw [done]
        have stored : old.id = id := store.db.keyed found
        have key : (old.reset choice.now).id = id := stored
        by_cases same : jobId = id
        · subst same
          exact .inr (.inr (.inl ⟨old, rfl, found,
            (store.db.setJob_jobs _ _).trans (if_pos key.symm)⟩))
        · exact .inl ((store.db.setJob_jobs _ _).trans
            (if_neg (key ▸ same)))
  | insertAttempt record =>
      simp only [exec, Postgres.insertAttempt]
      refine .inl ?_
      split
      · rfl
      · split
        · rfl
        · split <;> rfl
  | _ => exact .inl rfl

theorem exec_jobs_of_inert {deployment : Deployment} {choice : Choice}
    {call : Call} (inert : call.inert) (store : Store) (jobId : JobId) :
    (exec deployment choice call store).2.db.jobs jobId =
      store.db.jobs jobId := by
  rcases exec_jobs_cases deployment choice call store jobId with
    same | ⟨_, _, rfl, _⟩ | ⟨_, rfl, _⟩ | ⟨_, rfl, _⟩
  · exact same
  all_goals cases inert

/-- No call touches the webhooks. -/
theorem exec_webhooks (deployment : Deployment) (choice : Choice)
    (call : Call) (store : Store) :
    (exec deployment choice call store).2.db.webhooks = store.db.webhooks := by
  cases call with
  | insertJob input =>
      rcases store.db.insertJob_cases deployment.jsonb deployment.maxAttempts
        choice.uuid choice.now input with
        ⟨failure, raised⟩ | ⟨_, _, _, _, inserted⟩
      · simp only [exec, raised]
        rfl
      · simp only [exec, inserted]
        rfl
  | updateState update =>
      rcases store.db.updateState_cases choice.now update with
        ⟨_, missed⟩ | ⟨row, _, ⟨failure, raised⟩ | ⟨_, written⟩⟩
      · simp only [exec, missed]
        rfl
      · simp only [exec, raised]
        rfl
      · simp only [exec, written]
        rfl
  | resetForReplay jobId =>
      rcases store.db.resetForReplay_cases choice.now jobId with
        ⟨_, missed⟩ | ⟨row, _, written⟩
      · simp only [exec, missed]
        rfl
      · simp only [exec, written]
        rfl
  | insertAttempt record =>
      simp only [exec, Postgres.insertAttempt]
      split
      · rfl
      · split
        · rfl
        · split <;> rfl
  | _ => rfl

/-! ## Overruled workers that keep quiet -/

/-- The call that takes effect in this step. -/
def performedCall? (state : State) (action : Action) : Option Call := do
  let pid ← action.performer?
  state.pending? pid

/-- The call that a worker whose claim has been overruled makes in this
step. -/
def overruledCall? (state : State) (action : Action) : Option Call := do
  let pid ← action.performer?
  let call ← state.pending? pid
  match state.claim pid with
  | .superseded _ => some call
  | _ => none

/-- An update is out of everybody's way when the job waits in `ready` and has
not reached a terminal state. -/
def Call.OutOfTheWay (state : State) : Call → Prop
  | .updateState update =>
      (state.places update.id).ready = 1 ∧
        ∀ row ∈ state.store.db.jobs update.id, row.state.Open
  | _ => True

instance (state : State) : DecidablePred (Call.OutOfTheWay state) :=
  fun call => by
    induction call using Call.casesOn <;> unfold Call.OutOfTheWay <;> infer_instance

/-- Steps in which an overruled worker finds nothing to release, and writes a
row only out of everybody's way. -/
def Quiet (state : State) (action : Action) : Prop :=
  Unharmed state action ∧
    ∀ call ∈ overruledCall? state action, call.OutOfTheWay state

instance (state : State) (action : Action) :
    Decidable (Quiet state action) :=
  inferInstanceAs (Decidable (_ ∧ ∀ call ∈ overruledCall? state action,
    call.OutOfTheWay state))

theorem overruledCall?_of_superseded {state : State} {action : Action}
    {pid : Pid} {call : Call} {jobId : JobId}
    (performs : action.performer? = some pid)
    (pending : state.pending? pid = some call)
    (superseded : state.claim pid = .superseded jobId) :
    overruledCall? state action = some call := by
  simp [overruledCall?, performs, pending, superseded]

variable {deployment : Deployment} {before after : State} {action : Action}

/-- How a job comes to have a row in a quiet step. -/
inductive RowStep (deployment : Deployment) (before : State) (action : Action)
    (jobId : JobId) (row : JobRow) : Prop
  | kept (was : before.store.db.jobs jobId = some row)
  | inserted (input : JobInput) (now : Int)
      (unissued : jobId ∉ before.store.db.issued) (payload : String)
      (new : row = input.newRow deployment.maxAttempts jobId now payload)
  /-- The worker in whose reserve the job is writes the row, or a worker that
  has been overruled does so while the job waits. -/
  | updated (pid : Pid) (update : StateUpdate) (old : JobRow) (now : Int)
      (performs : action.performer? = some pid)
      (pending : before.pending? pid = some (.updateState update))
      (works : before.claim pid = .reserved jobId ∨
        before.claim pid = .superseded jobId ∧
          (before.places jobId).ready = 1 ∧ old.state.Open)
      (own : update.id = jobId)
      (was : before.store.db.jobs jobId = some old)
      (new : row = update.apply now old)
  | reset (pid : Pid) (old : JobRow) (now : Int)
      (performs : action.performer? = some pid)
      (pending : before.pending? pid = some (.resetForReplay jobId))
      (replaying : before.claim pid = .replaying jobId)
      (was : before.store.db.jobs jobId = some old)
      (new : row = old.reset now)

theorem row_of_step (invariant : QueueInvariant before)
    (quiet : Quiet before action)
    (taken : step deployment before action = some after) {jobId : JobId}
    {row : JobRow} (found : after.store.db.jobs jobId = some row) :
    RowStep deployment before action jobId row := by
  cases steps_of_step taken with
  | @performed _ pid choice process call next rescue resumed isProcess running
      connected resumes =>
      have permits := invariant.permits
        (State.pending?_of_running isProcess running)
      have pending := State.pending?_of_running isProcess running
      have performs := resumes.performer?.1
      rcases exec_jobs_cases deployment choice call before.store jobId with
        same | ⟨update, old, rfl, own, was, _, now⟩ | ⟨old, rfl, was, now⟩ |
          ⟨input, rfl, unissued, _, payload, _, now⟩
      · exact .kept (same ▸ found)
      · have written : row = update.apply choice.now old :=
          (Option.some.inj (now.symm.trans found)).symm
        refine .updated pid update old choice.now performs pending ?_ own was
          written
        subst own
        rcases permits with reserved | superseded
        · exact .inl reserved
        · obtain ⟨waits, open_⟩ := quiet.2 _
            (overruledCall?_of_superseded performs pending superseded)
          exact .inr ⟨superseded, waits, open_ old was⟩
      · have written : row = old.reset choice.now :=
          (Option.some.inj (now.symm.trans found)).symm
        exact .reset pid old choice.now performs pending permits was written
      · exact .inserted input choice.now unissued payload
          (Option.some.inj (now.symm.trans found)).symm
  | deleted => exact .kept (Option.filter_eq_some_iff.mp found).1
  | start | failed | crashed | shutdown | promoted | reaped | ticked
  | registered => exact .kept found

/-- A process that holds a job finds its row as it left it, or deleted. -/
theorem row_kept_of_held (invariant : QueueInvariant before)
    (quiet : Quiet before action)
    (taken : step deployment before action = some after) {pid : Pid}
    {jobId : JobId} (held : (before.claim pid).holds? = some jobId)
    (other : action.actor? ≠ some pid) {row : JobRow}
    (found : after.store.db.jobs jobId = some row) :
    before.store.db.jobs jobId = some row := by
  have custody := invariant.custody jobId
  have sole : ∀ {actor}, action.performer? = some actor →
      (before.claim actor).holds? ≠ some jobId := by
    intro actor performs held'
    rw [custody.exclusive held' held] at performs
    exact other (Action.actor?_of_performer? performs)
  cases row_of_step invariant quiet taken found with
  | kept was => exact was
  | inserted _ _ unissued =>
      exact absurd (custody.issued_of_claim held) unissued
  | updated _ _ _ _ performs _ works =>
      rcases works with reserved | ⟨_, waits, _⟩
      · exact absurd (by rw [reserved]; rfl) (sole performs)
      · exact absurd held (custody.unheld_of_waiting (by omega) pid)
  | reset _ _ _ performs _ replaying =>
      exact absurd (by rw [replaying]; rfl) (sole performs)

/-- The row of a job that waits in `delayed` or `dlq` is left alone. -/
theorem row_kept_of_waiting (invariant : QueueInvariant before)
    (quiet : Quiet before action)
    (taken : step deployment before action = some after) {jobId : JobId}
    (waiting : 0 <
      (before.places jobId).delayed + (before.places jobId).dlq)
    {row : JobRow} (found : after.store.db.jobs jobId = some row) :
    before.store.db.jobs jobId = some row := by
  have custody := invariant.custody jobId
  have unheld := custody.unheld_of_waiting (by omega)
  have once := custody.sound.once
  unfold Places.copies at once
  cases row_of_step invariant quiet taken found with
  | kept was => exact was
  | inserted _ _ unissued =>
      exact absurd (custody.issued_of_copies
        (by unfold Places.copies; omega)) unissued
  | updated pid _ _ _ _ _ works =>
      rcases works with reserved | ⟨_, waits, _⟩
      · exact absurd (by rw [reserved]; rfl) (unheld pid)
      · omega
  | reset pid _ _ _ _ replaying =>
      exact absurd (by rw [replaying]; rfl) (unheld pid)

/-- The step deletes rows. -/
def Action.deletes : Action → Bool
  | .deleteWebhook _ => true
  | _ => false

/-- Rows stay until they are deleted. -/
theorem row_stays (taken : step deployment before action = some after)
    (kept : action.deletes = false) {jobId : JobId}
    (stored : (before.store.db.jobs jobId).isSome) :
    (after.store.db.jobs jobId).isSome := by
  cases steps_of_step taken with
  | @performed _ pid choice process call =>
      rcases exec_jobs_cases deployment choice call before.store jobId with
        same | ⟨_, _, _, _, _, _, now⟩ | ⟨_, _, _, now⟩ |
          ⟨_, _, _, _, _, _, now⟩
      · exact same ▸ stored
      all_goals
        rw [State.perform_store, now]
        rfl
  | deleted => cases kept
  | start | failed | crashed | shutdown | promoted | reaped | ticked
  | registered => exact stored

/-- The step lets a worker claim a job that is already dead. -/
def ClaimsDead (state : State) (action : Action) : Prop :=
  performedCall? state action = some .brpoplpush ∧
    ∃ jobId ∈ state.store.redis.brpoplpush.1,
      ∃ row ∈ state.store.db.jobs jobId, row.state = .dead

instance (state : State) (action : Action) :
    Decidable (ClaimsDead state action) :=
  inferInstanceAs (Decidable (_ ∧
    ∃ jobId ∈ state.store.redis.brpoplpush.1,
      ∃ row ∈ state.store.db.jobs jobId, row.state = .dead))

theorem performedCall?_eq_some {state : State} {pid : Pid} {call : Call}
    (performs : action.performer? = some pid)
    (pending : state.pending? pid = some call) :
    performedCall? state action = some call := by
  simp [performedCall?, performs, pending]

/-! ## Jobs read as succeeded -/

theorem Event.succeeded?_of_unread {event : Event}
    (unread : event.call.reads = false) : event.succeeded? = none := by
  obtain ⟨pid, call, outcome⟩ := event
  cases call <;> first | rfl | cases unread

/-- A job is read as succeeded from its row. -/
theorem Event.succeeded?_exec {pid : Pid} {choice : Choice} {call : Call}
    {store : Store} {jobId : JobId}
    (read : Event.succeeded?
      ⟨pid, call, (exec deployment choice call store).1⟩ = some jobId) :
    ∃ row, store.db.jobs jobId = some row ∧ row.state = .succeeded := by
  cases call with
  | findJob id =>
      simp only [exec, Postgres.findJob] at read
      cases found : store.db.jobs id with
      | none =>
          rw [found] at read
          cases read
      | some row =>
          rw [found] at read
          simp only [Option.map_some, Event.succeeded?] at read
          split at read
          next succeeded =>
            cases read
            exact ⟨row, found, succeeded⟩
          · cases read
  | _ => cases read

theorem readSucceeded_perform {state : State} {pid : Pid} {choice : Choice}
    {call : Call} {resumed : Except AppError call.Reply → Process}
    {jobId : JobId} :
    (state.perform deployment pid choice call resumed).readSucceeded jobId =
      (decide (Event.succeeded?
          ⟨pid, call, (exec deployment choice call state.store).1⟩ =
            some jobId) ||
        state.readSucceeded jobId) :=
  rfl

theorem readSucceeded_of_step
    (taken : step deployment before action = some after) {jobId : JobId}
    (read : after.readSucceeded jobId) :
    before.readSucceeded jobId ∨
      ∃ row, before.store.db.jobs jobId = some row ∧
        row.state = .succeeded := by
  cases steps_of_step taken with
  | performed =>
      rw [readSucceeded_perform, Bool.or_eq_true, decide_eq_true_eq] at read
      rcases read with now | earlier
      · exact .inr (Event.succeeded?_exec now)
      · exact .inl earlier
  | _ => exact .inl read

/-! ## Ids of rows -/

theorem issued_of_step (taken : step deployment before action = some after)
    {jobId : JobId} (known : jobId ∈ before.store.db.issued) :
    jobId ∈ after.store.db.issued := by
  cases steps_of_step taken with
  | performed => exact exec_issued _ _ _ _ known
  | registered => exact List.mem_cons_of_mem _ known
  | _ => exact known

/-- A new row has an id that has been issued. -/
theorem issued_of_row (taken : step deployment before action = some after)
    {jobId : JobId} {row : JobRow}
    (found : after.store.db.jobs jobId = some row) :
    jobId ∈ after.store.db.issued ∨
      ∃ old, before.store.db.jobs jobId = some old := by
  cases steps_of_step taken with
  | @performed _ _ choice _ call =>
      rcases exec_jobs_cases deployment choice call before.store jobId with
        same | ⟨_, old, _, _, was, _⟩ | ⟨old, _, was, _⟩ | ⟨_, _, _, known, _⟩
      · exact .inr ⟨row, same ▸ found⟩
      · exact .inr ⟨old, was⟩
      · exact .inr ⟨old, was⟩
      · exact .inl known
  | deleted => exact .inr ⟨row, (Option.filter_eq_some_iff.mp found).1⟩
  | _ => exact .inr ⟨row, found⟩

end WebhookDelivery
