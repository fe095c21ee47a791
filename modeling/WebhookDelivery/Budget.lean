import WebhookDelivery.RowInvariant
import WebhookDelivery.Provenance

/-!
# The retry budget

Whether a failed job gets another attempt is decided from the row as it was
read, and the `UPDATE` increments the row as it is.  The budget holds as long
as a worker that outlives its lease writes the row only out of the way, and
counts an attempt only on top of those that it has read.
-/

namespace WebhookDelivery

open Concurrency

/-- The `attempts_within_max` check rejects the row that the call writes. -/
def Call.BreaksCheck (state : State) : Call → Prop
  | .updateState update =>
      ∃ row, state.store.db.jobs update.id = some row ∧
        row.maxAttempts <
          row.attempts + if update.incrementAttempts then 1 else 0
  | _ => False

/-- Every job that is not in a terminal state has budget left. -/
def WithinBudget (state : State) : Prop :=
  ∀ jobId row, state.store.db.jobs jobId = some row → row.state.Open →
    row.attempts < row.maxAttempts

/-- After the step every job is within its budget, and the step is no update
that the check rejects. -/
def BudgetKept (before : State) (action : Action) (after : State) : Prop :=
  WithinBudget after ∧
    ∀ call ∈ performedCall? before action, ¬call.BreaksCheck before

/-- The call finds as many attempts on a job that it requeues as its process has
read last. -/
def Call.UpToDate (state : State) (pid : Pid) : Call → Prop
  | .updateState update => update.state.Open → update.incrementAttempts →
      ∀ row ∈ state.store.db.jobs update.id,
        ∀ job ∈ lastRead update.id (state.log pid),
          row.attempts = job.attempts
  | _ => True

instance (state : State) (pid : Pid) :
    DecidablePred (Call.UpToDate state pid) :=
  fun call => by
    induction call using Call.casesOn <;> unfold Call.UpToDate <;>
      infer_instance

/-- Steps in which an overruled worker finds nothing to release, writes a row
only out of everybody's way, and requeues a job only with the attempts that it
has read. -/
def KeepsBudget (state : State) (action : Action) : Prop :=
  Quiet state action ∧ ∀ pid ∈ action.performer?,
    ∀ call ∈ overruledCall? state action, call.UpToDate state pid

instance (state : State) (action : Action) :
    Decidable (KeepsBudget state action) :=
  inferInstanceAs (Decidable (_ ∧ ∀ pid ∈ action.performer?,
    ∀ call ∈ overruledCall? state action, call.UpToDate state pid))

/-- The last reading of a row is one of the calls. -/
theorem mem_of_lastRead {jobId : JobId} {job : Job} {log : List Entry}
    (read : lastRead jobId log = some job) :
    ⟨.findJob jobId, .ok (some job)⟩ ∈ log := by
  induction log using lastRead.induct jobId with
  | case1 => cases read
  | case2 found earlier =>
      rw [lastRead, if_pos rfl] at read
      subst read
      exact List.mem_cons_self
  | case3 id found earlier other ih =>
      rw [lastRead, if_neg other] at read
      exact List.mem_cons_of_mem _ (ih read)
  | case4 entry earlier unread ih =>
      rw [lastRead] at read
      · exact List.mem_cons_of_mem _ (ih read)
      · exact unread

/-- Every row has the budget of the deployment, also as it was read, and has
some of it left unless its job has reached a terminal state. -/
structure BudgetInvariant (deployment : Deployment) (state : State) :
    Prop where
  rows : RowInvariant True state
  passes : PassInvariant deployment state
  budget : ∀ {jobId row}, state.store.db.jobs jobId = some row →
    row.maxAttempts = deployment.maxAttempts
  read : ∀ {pid jobId job},
    ⟨.findJob jobId, .ok (some job)⟩ ∈ state.log pid →
      job.maxAttempts = deployment.maxAttempts
  within : WithinBudget state

namespace BudgetInvariant

variable {deployment : Deployment} {before after : State} {action : Action}

theorem initial : BudgetInvariant deployment State.initial where
  rows := .initial
  passes := .initial
  budget found := by cases found
  read member := by cases member
  within _ _ found := by cases found

/-- A worker requeues a job, as it has read it, with budget left. -/
private theorem leaves_of_read (invariant : BudgetInvariant deployment before)
    {pid : Pid} {update : StateUpdate} {row : JobRow}
    (pending : before.pending? pid = some (.updateState update))
    (upToDate : (Call.updateState update).UpToDate before pid)
    (found : before.store.db.jobs update.id = some row)
    (open_ : update.state.Open) (increments : update.incrementAttempts) :
    row.attempts + 1 < row.maxAttempts := by
  have justified : Justified update (before.log pid) :=
    invariant.passes.disciplined.allowed pending
  have counted : ∃ job, lastRead update.id (before.log pid) = some job ∧
      job.attempts + 1 < job.maxAttempts := by
    unfold Justified at justified
    cases verdict : update.state with
    | queued | inFlight =>
        rw [verdict] at justified
        exact justified.2 increments
    | failed =>
        rw [verdict] at justified
        exact justified.elim
    | succeeded | dead =>
        rw [verdict] at open_
        exact absurd open_ (by decide)
  obtain ⟨job, read, leaves⟩ := counted
  rw [upToDate open_ increments row found job read, invariant.budget found,
    ← invariant.read (mem_of_lastRead read)]
  exact leaves

/-- What an update finds, whether its worker has been overruled or not. -/
private theorem budget_of_update (invariant : BudgetInvariant deployment before)
    (keepsBudget : KeepsBudget before action) {pid : Pid}
    {update : StateUpdate} {row : JobRow}
    (performs : action.performer? = some pid)
    (pending : before.pending? pid = some (.updateState update))
    (found : before.store.db.jobs update.id = some row) :
    row.attempts < row.maxAttempts ∧
      (update.state.Open → update.incrementAttempts →
        row.attempts + 1 < row.maxAttempts) := by
  have permits := invariant.rows.permits pending
  rcases invariant.rows.queue.permits pending with reserved | superseded
  · obtain ⟨open_, leaves⟩ := RowInvariant.all_of_claim
      (by rw [reserved]; rfl) (permits reserved) found
    exact ⟨invariant.within _ _ found open_, leaves⟩
  · have overruled := overruledCall?_of_superseded performs pending superseded
    have open_ := (keepsBudget.1.2 _ overruled).2 row found
    exact ⟨invariant.within _ _ found open_, invariant.leaves_of_read pending
      (keepsBudget.2 pid performs _ overruled) found⟩

private theorem budget_of_step (invariant : BudgetInvariant deployment before)
    (keepsBudget : KeepsBudget before action)
    (taken : WebhookDelivery.step deployment before action = some after)
    {jobId : JobId} {row : JobRow}
    (stored : after.store.db.jobs jobId = some row) :
    row.maxAttempts = deployment.maxAttempts := by
  cases row_of_step invariant.rows.queue keepsBudget.1 taken stored with
  | kept was => exact invariant.budget was
  | inserted _ _ _ _ new =>
      subst new
      rfl
  | updated _ _ _ _ _ _ _ _ was new =>
      have budget := invariant.budget was
      subst new
      exact budget
  | reset _ _ _ _ _ _ was new =>
      have budget := invariant.budget was
      subst new
      exact budget

private theorem read_of_step (invariant : BudgetInvariant deployment before)
    (taken : WebhookDelivery.step deployment before action = some after)
    {pid : Pid} {jobId : JobId} {job : Job}
    (read : ⟨.findJob jobId, .ok (some job)⟩ ∈ after.log pid) :
    job.maxAttempts = deployment.maxAttempts := by
  rcases mem_log_cases taken read with earlier | ⟨choice, _, told, _⟩
  · exact invariant.read earlier
  · obtain ⟨row, found, rfl⟩ :=
      Option.map_eq_some_iff.mp (Except.ok.inj told)
    exact invariant.budget found

private theorem within_of_step (invariant : BudgetInvariant deployment before)
    (keepsBudget : KeepsBudget before action)
    (budget : 0 < deployment.maxAttempts)
    (taken : WebhookDelivery.step deployment before action = some after) :
    WithinBudget after := by
  intro jobId row stored open_
  cases row_of_step invariant.rows.queue keepsBudget.1 taken stored with
  | kept was => exact invariant.within jobId row was open_
  | inserted _ _ _ _ new =>
      subst new
      exact budget
  | updated pid update old now performs pending _ own was new =>
      subst own
      obtain ⟨within, leaves⟩ :=
        invariant.budget_of_update keepsBudget performs pending was
      subst new
      by_cases increments : update.incrementAttempts
      · simpa [StateUpdate.apply, increments] using leaves open_ increments
      · simpa [StateUpdate.apply, increments] using within
  | reset _ old _ _ _ _ was new =>
      have positive : 0 < old.maxAttempts := invariant.budget was ▸ budget
      subst new
      exact positive

theorem step (invariant : BudgetInvariant deployment before)
    (keepsBudget : KeepsBudget before action)
    (budget : 0 < deployment.maxAttempts)
    (taken : WebhookDelivery.step deployment before action = some after) :
    BudgetInvariant deployment after where
  rows := invariant.rows.step keepsBudget.1 (fun _ => trivial) taken
  passes := invariant.passes.step taken
  budget := invariant.budget_of_step keepsBudget taken
  read := invariant.read_of_step taken
  within := invariant.within_of_step keepsBudget budget taken

/-- No update is rejected by the check. -/
theorem not_breaksCheck (invariant : BudgetInvariant deployment before)
    (keepsBudget : KeepsBudget before action) {call : Call}
    (performed : performedCall? before action = some call) :
    ¬call.BreaksCheck before := by
  obtain ⟨pid, performs, pending⟩ := Option.bind_eq_some_iff.mp performed
  cases call with
  | updateState update =>
      rintro ⟨row, found, exceeds⟩
      have within :=
        (invariant.budget_of_update keepsBudget performs pending found).1
      split at exceeds <;> omega
  | _ => exact id

end BudgetInvariant

/-- Worker 1 requeues the job after its lease has ended, but before worker 2
claims it. -/
def requeuedOutOfTheWay : List Action :=
  enqueueOne ++ deliverOnce 1 500 7 ++ [.reap 60000 100] ++ calls 1 1 ++
    [.crash 1, .start 2 .worker] ++ calls 2 4

/-- Worker 1 is about to write `queued` after a failed delivery when its lease
ends, and worker 2 fails to deliver the job and requeues it. -/
def requeuedTwice : List Action :=
  enqueueOne ++ deliverOnce 1 500 7 ++ [.reap 60000 100] ++
    deliverOnce 2 500 8

end WebhookDelivery
