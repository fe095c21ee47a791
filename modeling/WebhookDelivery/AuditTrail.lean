import WebhookDelivery.Library.Counting
import WebhookDelivery.TraceInvariant
import WebhookDelivery.RowSteps
import WebhookDelivery.Fencing

/-!
# The audit trail

A delivery reads its attempt number long before it records the attempt, and
several workers may hold the same number.  The unique constraint lets only the
first of them record it, so that the recorded numbers have no gap and no
repeat.  Since a worker spends no attempt that it has not recorded, the attempts
of a row are covered by the records.
-/

namespace WebhookDelivery

open Concurrency TraceDiscipline

/-- The attempt numbers of a job, in order of insertion. -/
def Postgres.numbersOf (db : Postgres) (jobId : JobId) : List Nat :=
  (db.attemptsOf jobId).map AttemptRecord.attemptNumber

/-- The attempts of every job are recorded as 1, 2, … in order of insertion,
and there are as many of them as its row counts, or more. -/
def AuditTrail (db : Postgres) : Prop :=
  ∀ jobId, ∃ count, db.numbersOf jobId = List.range' 1 count ∧
    ∀ row, db.jobs jobId = some row → row.attempts ≤ count

/-! ## What calls add to the trail -/

theorem attemptsOf_congr {db other : Postgres}
    (same : db.deliveryAttempts = other.deliveryAttempts) (jobId : JobId) :
    db.attemptsOf jobId = other.attemptsOf jobId := by
  rw [Postgres.attemptsOf, Postgres.attemptsOf, same]

/-- A call leaves the audit trail alone, or it appends one record with a number
that its job does not have yet. -/
theorem exec_deliveryAttempts (deployment : Deployment) (choice : Choice)
    (call : Call) (store : Store) (pid : Pid) :
    ((exec deployment choice call store).2.db.deliveryAttempts =
        store.db.deliveryAttempts ∧
      Event.recorded? ⟨pid, call, (exec deployment choice call store).1⟩ =
        none) ∨
      ∃ record, call = .insertAttempt record ∧
        record.attemptNumber ∉ store.db.numbersOf record.jobId ∧
        (exec deployment choice call store).2.db.deliveryAttempts =
          store.db.deliveryAttempts ++ [record] ∧
        Event.recorded? ⟨pid, call, (exec deployment choice call store).1⟩ =
          some record.jobId := by
  cases call with
  | insertAttempt record =>
      simp only [exec, Postgres.insertAttempt]
      split
      · exact .inl ⟨rfl, rfl⟩
      · split
        · exact .inl ⟨rfl, rfl⟩
        next unrecorded =>
          split
          · exact .inl ⟨rfl, rfl⟩
          · exact .inr ⟨record, rfl, unrecorded, rfl, rfl⟩
  | insertJob input =>
      left
      rcases store.db.insertJob_cases deployment.jsonb deployment.maxAttempts
        choice.uuid choice.now input with
        ⟨failure, raised⟩ | ⟨_, _, _, _, done⟩
      · simp only [exec, raised]
        exact ⟨rfl, rfl⟩
      · simp only [exec, done]
        exact ⟨rfl, rfl⟩
  | updateState update =>
      left
      rcases store.db.updateState_cases choice.now update with
        ⟨_, absent⟩ | ⟨row, _, ⟨failure, raised⟩ | ⟨_, done⟩⟩
      · simp only [exec, absent]
        exact ⟨rfl, rfl⟩
      · simp only [exec, raised]
        exact ⟨rfl, rfl⟩
      · simp only [exec, done]
        exact ⟨rfl, rfl⟩
  | resetForReplay id =>
      left
      rcases store.db.resetForReplay_cases choice.now id with
        ⟨_, absent⟩ | ⟨row, _, done⟩
      · simp only [exec, absent]
        exact ⟨rfl, rfl⟩
      · simp only [exec, done]
        exact ⟨rfl, rfl⟩
  | _ => exact .inl ⟨rfl, rfl⟩

/-- A call that spends an attempt is counted in the row it writes. -/
theorem exec_attempts (deployment : Deployment) (choice : Choice)
    (call : Call) (store : Store) (pid : Pid) {jobId : JobId} {row : JobRow}
    (stored : (exec deployment choice call store).2.db.jobs jobId =
      some row) :
    row.attempts = 0 ∨ ∃ old, store.db.jobs jobId = some old ∧
      row.attempts ≤ old.attempts + if Event.spent?
        ⟨pid, call, (exec deployment choice call store).1⟩ = some jobId
          then 1 else 0 := by
  rcases exec_jobs_cases deployment choice call store jobId with
    same | ⟨update, old, rfl, rfl, was, within, now⟩ | ⟨old, rfl, was, now⟩ |
      ⟨input, rfl, _, _, payload, _, now⟩
  · exact .inr ⟨row, same ▸ stored, Nat.le_add_right _ _⟩
  · rw [now] at stored
    cases stored
    refine .inr ⟨old, was, ?_⟩
    rcases store.db.updateState_cases choice.now update with
      ⟨absent, _⟩ | ⟨found, isRow, ⟨failure, raised⟩ | ⟨_, done⟩⟩
    · rw [was] at absent
      cases absent
    · simp only [exec, raised] at now
      change store.db.jobs update.id = _ at now
      rw [was] at now
      rw [← Option.some.inj now]
      exact Nat.le_add_right _ _
    · simp only [exec, done, Event.spent?, StateUpdate.apply]
      split <;> simp_all
  · rw [now] at stored
    cases stored
    exact .inl rfl
  · rw [now] at stored
    cases stored
    exact .inl rfl

/-- The next number after 1, 2, …, `count`. -/
theorem nextAttemptNumber_eq {db : Postgres} {jobId : JobId} {count : Nat}
    (numbers : db.numbersOf jobId = List.range' 1 count) :
    db.nextAttemptNumber jobId = count + 1 := by
  have last : ∀ count, (List.range' 1 count).foldl max 0 = count := by
    intro count
    induction count with
    | zero => rfl
    | succ count ih =>
        rw [List.range'_concat, List.foldl_append, ih]
        simp only [List.foldl_cons, List.foldl_nil]
        omega
  change (db.numbersOf jobId).foldl max 0 + 1 = count + 1
  rw [numbers, last]

theorem numbersOf_append {db after : Postgres} {record : AttemptRecord}
    (appended : after.deliveryAttempts = db.deliveryAttempts ++ [record])
    (jobId : JobId) :
    after.numbersOf jobId = db.numbersOf jobId ++
      if record.jobId = jobId then [record.attemptNumber] else [] := by
  simp only [Postgres.numbersOf, Postgres.attemptsOf, appended,
    List.filter_append, List.map_append]
  congr 1
  by_cases same : record.jobId = jobId <;> simp [same]

/-! ## The invariant -/

/-- The trail of every job is contiguous and has one record for every recorded
attempt, numbers that have been given out are at most the next one, and a row
counts no attempt that has not been spent. -/
structure AuditInvariant (state : State) : Prop where
  trace : TraceInvariant False state
  numbers : ∀ jobId, state.store.db.numbersOf jobId =
    List.range' 1 (recordedOf state.history jobId)
  given : ∀ {jobId number},
    did state.history Event.numbered? (jobId, number) →
      0 < number ∧ number ≤ recordedOf state.history jobId + 1
  spent : ∀ {jobId row}, state.store.db.jobs jobId = some row →
    row.attempts ≤ spentOf state.history jobId

namespace AuditInvariant

variable {deployment : Deployment} {before after : State} {action : Action}

theorem initial : AuditInvariant State.initial where
  trace := .initial
  numbers _ := rfl
  given done := (did_nil _ _ done).elim
  spent found := by cases found

/-- No more attempts are spent on a job than are recorded. -/
theorem spentOf_le_recordedOf {state : State}
    (invariant : TraceInvariant False state) (jobId : JobId) :
    spentOf state.history jobId ≤ recordedOf state.history jobId :=
  Counting.countP_le_of_groups Event.pid _ _ state.history
    fun pid => invariant.balanced pid jobId

theorem auditTrail {state : State} (invariant : AuditInvariant state) :
    AuditTrail state.store.db := by
  intro jobId
  refine ⟨_, invariant.numbers jobId, fun row found => ?_⟩
  exact (invariant.spent found).trans
    (spentOf_le_recordedOf invariant.trace jobId)

/-- A record that is inserted has the next number of its job. -/
private theorem number_of_insert (invariant : AuditInvariant before)
    {pid : Pid} {record : AttemptRecord}
    (pending : before.pending? pid = some (.insertAttempt record))
    (unrecorded : record.attemptNumber ∉
      before.store.db.numbersOf record.jobId) :
    record.attemptNumber =
      recordedOf before.history record.jobId + 1 := by
  obtain ⟨role, known, allows⟩ := invariant.trace.allows pending
  have numbered : did (before.own pid) Event.numbered?
      (record.jobId, record.attemptNumber) := by
    cases role with
    | enqueue input => exact allows.2.elim
    | worker => exact allows
    | replay limit => exact allows.elim
  obtain ⟨positive, bound⟩ :=
    invariant.given (did_history_iff.mpr ⟨pid, numbered⟩)
  rw [invariant.numbers, List.mem_range'_1] at unrecorded
  omega

/-- What a performed call does to the trail and to the records counted. -/
private theorem numbers_of_performed (invariant : AuditInvariant before)
    {pid : Pid} {choice : Choice} {call : Call}
    (pending : before.pending? pid = some call)
    (store : after.store = (exec deployment choice call before.store).2)
    (history : after.history = ⟨pid, call,
      (exec deployment choice call before.store).1⟩ :: before.history)
    (jobId : JobId) :
    after.store.db.numbersOf jobId =
        List.range' 1 (recordedOf after.history jobId) ∧
      recordedOf before.history jobId ≤ recordedOf after.history jobId := by
  rw [store, history]
  simp only [recordedOf, List.countP_cons]
  rcases exec_deliveryAttempts deployment choice call before.store pid with
    ⟨same, unrecorded⟩ | ⟨record, rfl, unrecorded, appended, recorded⟩
  · simp only [unrecorded, reduceCtorEq, decide_false, Bool.false_eq_true,
      if_false, Nat.add_zero, le_refl, and_true]
    rw [Postgres.numbersOf, attemptsOf_congr same]
    exact invariant.numbers jobId
  · have number := invariant.number_of_insert pending unrecorded
    rw [numbersOf_append appended, invariant.numbers jobId, recorded, number]
    by_cases same : record.jobId = jobId
    · subst same
      simp only [decide_true, if_true]
      refine ⟨?_, Nat.le_add_right _ _⟩
      rw [List.range'_concat, Nat.one_mul, Nat.add_comm 1]
      rfl
    · simp [same, recordedOf]

private theorem numbers_of_step (invariant : AuditInvariant before)
    (kept : action.deletes = false)
    (taken : WebhookDelivery.step deployment before action = some after)
    (jobId : JobId) :
    after.store.db.numbersOf jobId =
        List.range' 1 (recordedOf after.history jobId) ∧
      recordedOf before.history jobId ≤ recordedOf after.history jobId := by
  cases steps_of_step taken with
  | @performed _ pid choice process call next rescue resumed found running =>
      exact invariant.numbers_of_performed
        (State.pending?_of_running found running) rfl rfl jobId
  | deleted => cases kept
  | start | failed | crashed | shutdown | promoted | reaped | ticked
  | registered => exact ⟨invariant.numbers jobId, le_rfl⟩

private theorem given_of_step (invariant : AuditInvariant before)
    (kept : action.deletes = false)
    (taken : WebhookDelivery.step deployment before action = some after)
    {jobId : JobId} {number : Nat}
    (given : did after.history Event.numbered? (jobId, number)) :
    0 < number ∧ number ≤ recordedOf after.history jobId + 1 := by
  obtain ⟨_, grows⟩ := invariant.numbers_of_step kept taken jobId
  obtain ⟨pid, given⟩ := did_history_iff.mp given
  rcases did_of_step taken given with
    earlier | ⟨choice, call, _, _, _, numbers⟩
  · have bound := invariant.given (did_history_iff.mpr ⟨pid, earlier⟩)
    omega
  · cases call with
    | nextAttemptNumber id =>
        cases numbers
        have next := nextAttemptNumber_eq (invariant.numbers jobId)
        omega
    | _ => cases numbers

private theorem spent_of_step (invariant : AuditInvariant before)
    (taken : WebhookDelivery.step deployment before action = some after)
    {jobId : JobId} {row : JobRow}
    (stored : after.store.db.jobs jobId = some row) :
    row.attempts ≤ spentOf after.history jobId := by
  cases steps_of_step taken with
  | @performed _ pid choice process call next rescue resumed found running =>
      change row.attempts ≤ spentOf (_ :: before.history) jobId
      simp only [spentOf, List.countP_cons, decide_eq_true_eq]
      rcases exec_attempts deployment choice call before.store pid stored with
        none | ⟨old, was, bound⟩
      · omega
      · have spent := invariant.spent was
        unfold spentOf at spent
        omega
  | deleted => exact invariant.spent (Option.filter_eq_some_iff.mp stored).1
  | start | failed | crashed | shutdown | promoted | reaped | ticked
  | registered => exact invariant.spent stored

theorem step (invariant : AuditInvariant before)
    (kept : action.deletes = false)
    (taken : WebhookDelivery.step deployment before action = some after) :
    AuditInvariant after where
  trace := invariant.trace.step False.elim taken
  numbers jobId := (invariant.numbers_of_step kept taken jobId).1
  given := invariant.given_of_step kept taken
  spent := invariant.spent_of_step taken

end AuditInvariant

/-- In every run that deletes no row, the audit trail of every job is
contiguous and covers the attempts of its row. -/
theorem audit_trail_kept (deployment : Deployment) (actions : List Action)
    (kept : ∀ transition ∈
      transitions (step deployment) State.initial actions,
        transition.action.deletes = false) :
    ∀ transition ∈ transitions (step deployment) State.initial actions,
      AuditTrail transition.after.store.db := by
  intro transition member
  obtain ⟨_, after⟩ := @invariant_of_transitions _ _ (step deployment)
    AuditInvariant (fun _ action => action.deletes = false)
    (fun _ _ _ invariant kept taken => invariant.step kept taken)
    _ .initial _ kept transition member
  exact after.auditTrail

/-- Worker 1 outlives its lease between reading its attempt number and
recording it, and worker 2 records the same number first. -/
def numberedTwice : List Action :=
  enqueueOne ++ .start 1 .worker :: calls 1 14 ++ [.reap 60000 100] ++
    deliverOnce 2 500 3 ++ [.call 1 { response := .ok 500 }] ++ calls 1 3

theorem audit_trail_kept_numberedTwice :
    (run (step {}) State.initial numberedTwice).isSome ∧
      ∀ transition ∈ transitions (step {}) State.initial numberedTwice,
        AuditTrail transition.after.store.db :=
  ⟨by decide +kernel, audit_trail_kept {} numberedTwice (by decide +kernel)⟩

end WebhookDelivery
