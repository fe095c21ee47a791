import WebhookDelivery.Provenance
import WebhookDelivery.AuditTrail
import WebhookDelivery.OnePlace
import WebhookDelivery.TenantIsolation

/-!
# What the rows say of the deliveries

Operators and customers see a delivery through two tables: the attempts that
workers have recorded and the state of the job.  Both are written long after
the request, by processes that may have been overruled, and next to replays,
retries and deletions.  Still every recorded attempt says what one worker was
answered, and no job is called delivered or dead without such an attempt.
-/

namespace WebhookDelivery

open Concurrency

variable {deployment : Deployment} {before after state : State}
  {action : Action}

/-! ## Answers and records -/

/-- A status code has come with the answer to a request. -/
theorem Heard.answered {request : DeliveryRequest} {status : Nat}
    {responseBody error : Option String} {calls : List Entry}
    (heard : Heard request (some status) responseBody error calls) :
    ⟨.fetch request, .ok status⟩ ∈ calls := by
  cases heard <;> simp

/-- Nothing but a 2xx answer leaves an attempt without an error. -/
theorem Heard.failing {request : DeliveryRequest} {statusCode : Option Nat}
    {responseBody error : Option String} {calls : List Entry}
    (heard : Heard request statusCode responseBody error calls)
    (undelivered : statusCode.any DeliveryService.isOk = false) :
    error.isSome := by
  cases heard with
  | read status text =>
      have bad : DeliveryService.isOk status = false := by
        simpa using undelivered
      simp [bad]
  | _ => rfl

/-- A status code on record has come with the answer to a request. -/
theorem Reported.answered {record : AttemptRecord} {log : List Entry}
    (reported : Reported record log) {status : Nat}
    (known : record.statusCode = some status) :
    ∃ request, request.jobId = record.jobId ∧
      request.attempt = record.attemptNumber ∧
      ⟨.fetch request, .ok status⟩ ∈ log := by
  obtain ⟨request, calls, _, _, _, job, number, heard, _, rfl⟩ := reported
  rw [known] at heard
  exact ⟨request, job, number, by simp [heard.answered]⟩

theorem Reported.failing {record : AttemptRecord} {log : List Entry}
    (reported : Reported record log)
    (undelivered : record.delivered = false) : record.error.isSome := by
  obtain ⟨_, _, _, _, _, _, _, heard, _⟩ := reported
  exact heard.failing undelivered

/-- A request for the attempt has been answered with the status. -/
def State.AnsweredWith (state : State) (record : AttemptRecord)
    (status : Nat) : Prop :=
  ∃ pid request, request.jobId = record.jobId ∧
    request.attempt = record.attemptNumber ∧
    ⟨pid, .fetch request, .ok status⟩ ∈ state.history

/-- A request for the job has been answered with a 2xx status. -/
def State.Landed (state : State) (jobId : JobId) : Prop :=
  ∃ pid request status, request.jobId = jobId ∧
    DeliveryService.isOk status = true ∧
    ⟨pid, .fetch request, .ok status⟩ ∈ state.history

/-- What a row says of its job, and the attempts it rests on. -/
structure Judged (state : State) (row : JobRow) : Prop where
  judged : row.state ≠ .failed
  succeeded : row.state = .succeeded → row.lastError = none ∧
    ∃ record ∈ state.store.db.attemptsOf row.id, record.delivered = true
  dead : row.state = .dead → ∃ record ∈ state.store.db.attemptsOf row.id,
    record.delivered = false ∧ row.lastError = record.error ∧
    ∃ pid job, job.id = row.id ∧ RecordedFor job record (state.log pid) ∧
      (Backoff.isRetryable record.statusCode = false ∨
        job.maxAttempts ≤ job.attempts + 1)
  failing : ∀ error ∈ row.lastError,
    ∃ record ∈ state.store.db.attemptsOf row.id, record.error = some error

theorem Judged.mono {row : JobRow} (judged : Judged before row)
    (kept : ∀ record ∈ before.store.db.attemptsOf row.id,
      record ∈ after.store.db.attemptsOf row.id)
    (grown : ∀ pid, before.log pid <:+ after.log pid) :
    Judged after row where
  judged := judged.judged
  succeeded done := by
    obtain ⟨none, record, member, delivered⟩ := judged.succeeded done
    exact ⟨none, record, kept record member, delivered⟩
  dead given := by
    obtain ⟨record, member, undelivered, same, pid, job, own, recorded,
      reason⟩ := judged.dead given
    exact ⟨record, kept record member, undelivered, same, pid, job, own,
      recorded.mono (grown pid), reason⟩
  failing error shown := by
    obtain ⟨record, member, same⟩ := judged.failing error shown
    exact ⟨record, kept record member, same⟩

/-- A row that has just been created or reset says nothing. -/
theorem Judged.of_queued {row : JobRow} (queued : row.state = .queued)
    (none : row.lastError = none) : Judged state row where
  judged := by simp [queued]
  succeeded done := by simp [queued] at done
  dead given := by simp [queued] at given
  failing error shown := by simp [none] at shown

/-! ## What a step does to the tables -/

theorem mem_attemptsOf {db : Postgres} {jobId : JobId}
    {record : AttemptRecord} :
    record ∈ db.attemptsOf jobId ↔
      record ∈ db.deliveryAttempts ∧ record.jobId = jobId := by
  simp [Postgres.attemptsOf]

/-- The attempts of a row are kept as long as the row is. -/
theorem attemptsOf_of_step (taken : step deployment before action = some after)
    {jobId : JobId} {row : JobRow}
    (stored : after.store.db.jobs jobId = some row) {record : AttemptRecord}
    (member : record ∈ before.store.db.attemptsOf jobId) :
    record ∈ after.store.db.attemptsOf jobId := by
  obtain ⟨listed, own⟩ := mem_attemptsOf.mp member
  refine mem_attemptsOf.mpr ⟨?_, own⟩
  cases steps_of_step taken with
  | @performed _ pid choice process call next rescue resumed =>
      rw [State.perform_store]
      rcases exec_deliveryAttempts deployment choice call before.store pid with
        ⟨same, _⟩ | ⟨_, _, _, appended, _⟩
      · rwa [same]
      · rw [appended]
        exact List.mem_append_left _ listed
  | deleted =>
      refine List.mem_filter.mpr ⟨listed, ?_⟩
      rw [own]
      exact Option.isSome_of_mem stored
  | start | failed | crashed | shutdown | promoted | reaped | ticked
  | registered => exact listed

/-- A row that is gone does not come back. -/
theorem absent_of_step (taken : step deployment before action = some after)
    {jobId : JobId} (known : jobId ∈ before.store.db.issued)
    (absent : before.store.db.jobs jobId = none) :
    after.store.db.jobs jobId = none := by
  cases steps_of_step taken with
  | @performed _ pid choice process call next rescue resumed =>
      rw [State.perform_store]
      rcases exec_jobs_cases deployment choice call before.store jobId with
        same | ⟨_, _, _, _, was, _⟩ | ⟨_, _, was, _⟩ | ⟨_, _, fresh, _⟩
      · rw [same, absent]
      · exact absurd (absent.symm.trans was) nofun
      · exact absurd (absent.symm.trans was) nofun
      · exact absurd known fresh
  | deleted =>
      change (before.store.db.jobs jobId).filter _ = none
      rw [absent]
      rfl
  | start | failed | crashed | shutdown | promoted | reaped | ticked
  | registered => exact absent

/-- An attempt is recorded while the row of its job is there. -/
theorem insertAttempt_ok {record : AttemptRecord} {db : Postgres}
    (inserted : (db.insertAttempt record).1 = .ok ()) :
    (db.jobs record.jobId).isSome ∧
      record ∈ (db.insertAttempt record).2.deliveryAttempts := by
  unfold Postgres.insertAttempt at inserted ⊢
  split at inserted
  · cases inserted
  next present =>
    split at inserted
    · cases inserted
    next unrecorded =>
      split at inserted
      · cases inserted
      next storable =>
        simp only [present, unrecorded, storable, if_false]
        exact ⟨Option.isSome_iff_ne_none.mpr (by simpa using present), by simp⟩

/-! ## The invariant -/

/-- Every attempt of the trail has been recorded by a process; every attempt
that has been recorded is in the trail, or its job is gone; and every row says
what its attempts came to. -/
structure VerdictInvariant (deployment : Deployment) (state : State) :
    Prop where
  passes : PassInvariant deployment state
  issued : ∀ {jobId row}, state.store.db.jobs jobId = some row →
    jobId ∈ state.store.db.issued
  trail : ∀ {record}, record ∈ state.store.db.deliveryAttempts →
    ∃ pid, ⟨.insertAttempt record, .ok ()⟩ ∈ state.log pid
  recorded : ∀ {pid record},
    ⟨.insertAttempt record, .ok ()⟩ ∈ state.log pid →
      record.jobId ∈ state.store.db.issued ∧
        (state.store.db.jobs record.jobId = none ∨
          record ∈ state.store.db.deliveryAttempts)
  judged : ∀ {jobId row}, state.store.db.jobs jobId = some row →
    Judged state row
  read : ∀ {pid jobId job},
    ⟨.findJob jobId, .ok (some job)⟩ ∈ state.log pid →
      job.state = .succeeded → state.Landed jobId

namespace VerdictInvariant

theorem initial : VerdictInvariant deployment State.initial where
  passes := .initial
  issued found := by cases found
  trail member := by cases member
  recorded member := by cases member
  judged found := by cases found
  read member := by cases member

/-- What a process has recorded is what it has been answered. -/
theorem reported (invariant : VerdictInvariant deployment state) {pid : Pid}
    {record : AttemptRecord}
    (inserted : ⟨.insertAttempt record, .ok ()⟩ ∈ state.log pid) :
    ∃ later earlier, state.log pid =
      later ++ ⟨.insertAttempt record, .ok ()⟩ :: earlier ∧
        Reported record earlier := by
  obtain ⟨later, earlier, split⟩ := List.append_of_mem inserted
  exact ⟨later, earlier, split,
    invariant.passes.kept pid later _ earlier split⟩

theorem answeredWith (invariant : VerdictInvariant deployment state)
    {pid : Pid} {record : AttemptRecord}
    (inserted : ⟨.insertAttempt record, .ok ()⟩ ∈ state.log pid)
    {status : Nat} (known : record.statusCode = some status) :
    state.AnsweredWith record status := by
  obtain ⟨later, earlier, split, reported⟩ := invariant.reported inserted
  obtain ⟨request, job, number, answered⟩ := reported.answered known
  refine ⟨pid, request, job, number, mem_log_iff.mp ?_⟩
  rw [split]
  exact List.mem_append_right _ (List.mem_cons_of_mem _ answered)

/-- An attempt that is recorded as delivered has been accepted. -/
theorem landed (invariant : VerdictInvariant deployment state)
    {pid : Pid} {record : AttemptRecord}
    (inserted : ⟨.insertAttempt record, .ok ()⟩ ∈ state.log pid)
    (delivered : record.delivered = true) :
    state.Landed record.jobId := by
  obtain ⟨status, known, good⟩ := (Option.any_eq_true _ _).mp delivered
  obtain ⟨pid, request, job, _, answered⟩ :=
    invariant.answeredWith inserted known
  exact ⟨pid, request, status, job, good, answered⟩

private theorem issued_after (invariant : VerdictInvariant deployment before)
    (taken : WebhookDelivery.step deployment before action = some after)
    {jobId : JobId} {row : JobRow}
    (stored : after.store.db.jobs jobId = some row) :
    jobId ∈ after.store.db.issued := by
  have old : ∀ {row}, before.store.db.jobs jobId = some row →
      jobId ∈ after.store.db.issued := fun was =>
    Provenance.issued_of_step taken (invariant.issued was)
  cases steps_of_step taken with
  | @performed _ pid choice process call next rescue resumed =>
      rw [State.perform_store] at stored old ⊢
      rcases exec_jobs_cases deployment choice call before.store jobId with
        same | ⟨_, _, _, _, was, _⟩ | ⟨_, _, was, _⟩ | ⟨_, _, _, known, _⟩
      · exact old (same ▸ stored)
      · exact old was
      · exact old was
      · exact known
  | deleted => exact old (Option.filter_eq_some_iff.mp stored).1
  | start | failed | crashed | shutdown | promoted | reaped | ticked
  | registered => exact old stored

private theorem trail_after (invariant : VerdictInvariant deployment before)
    (taken : WebhookDelivery.step deployment before action = some after)
    {record : AttemptRecord}
    (member : record ∈ after.store.db.deliveryAttempts) :
    ∃ pid, ⟨.insertAttempt record, .ok ()⟩ ∈ after.log pid := by
  have earlier : record ∈ before.store.db.deliveryAttempts →
      ∃ pid, ⟨.insertAttempt record, .ok ()⟩ ∈ after.log pid := by
    intro listed
    obtain ⟨pid, inserted⟩ := invariant.trail listed
    exact ⟨pid, mem_log_of_step taken inserted⟩
  cases steps_of_step taken with
  | @performed _ pid choice process call next rescue resumed found running
      connected resumes =>
      rw [State.perform_store] at member
      rcases exec_deliveryAttempts deployment choice call before.store pid with
        ⟨same, _⟩ | ⟨new, rfl, _, appended, counted⟩
      · exact earlier (same ▸ member)
      · rw [appended, List.mem_append, List.mem_singleton] at member
        rcases member with listed | rfl
        · exact earlier listed
        · refine ⟨pid, mem_log_iff.mpr ?_⟩
          cases outcome : (exec deployment choice (.insertAttempt record)
              before.store).1 with
          | error failure =>
              rw [outcome] at counted
              cases counted
          | ok done =>
              rw [← outcome]
              exact List.mem_cons_self
  | deleted => exact earlier (List.mem_filter.mp member).1
  | start | failed | crashed | shutdown | promoted | reaped | ticked
  | registered => exact earlier member

private theorem recorded_after
    (invariant : VerdictInvariant deployment before)
    (taken : WebhookDelivery.step deployment before action = some after)
    {pid : Pid} {record : AttemptRecord}
    (member : ⟨.insertAttempt record, .ok ()⟩ ∈ after.log pid) :
    record.jobId ∈ after.store.db.issued ∧
      (after.store.db.jobs record.jobId = none ∨
        record ∈ after.store.db.deliveryAttempts) := by
  rcases mem_log_cases taken member with
    earlier | ⟨choice, _, inserted, store⟩
  · obtain ⟨known, listed⟩ := invariant.recorded earlier
    refine ⟨Provenance.issued_of_step taken known, ?_⟩
    cases stored : after.store.db.jobs record.jobId with
    | none => exact .inl rfl
    | some row =>
        right
        rcases listed with absent | listed
        · rw [absent_of_step taken known absent] at stored
          cases stored
        · exact (mem_attemptsOf.mp (attemptsOf_of_step taken stored
            (mem_attemptsOf.mpr ⟨listed, rfl⟩))).1
  · obtain ⟨present, listed⟩ := insertAttempt_ok inserted
    obtain ⟨row, stored⟩ := Option.isSome_iff_exists.mp present
    refine ⟨Provenance.issued_of_step taken (invariant.issued stored),
      .inr ?_⟩
    rw [store]
    exact listed

/-- A worker finds the attempts it has recorded in the trail of a row it
writes. -/
private theorem tried (invariant : VerdictInvariant deployment before)
    {pid : Pid} {jobId : JobId} {row : JobRow}
    (stored : before.store.db.jobs jobId = some row) {record : AttemptRecord}
    (recorded : Recorded jobId record (before.log pid)) :
    record ∈ before.store.db.attemptsOf jobId := by
  obtain ⟨inserted, rfl⟩ := recorded
  rcases (invariant.recorded inserted).2 with absent | listed
  · exact absurd (absent.symm.trans stored) nofun
  · exact mem_attemptsOf.mpr ⟨listed, rfl⟩

/-- A verdict is written with its attempt in the trail. -/
private theorem judged_of_update
    (invariant : VerdictInvariant deployment before)
    (taken : WebhookDelivery.step deployment before action = some after)
    {pid : Pid} {update : StateUpdate} {old : JobRow}
    (justified : Justified update (before.log pid))
    (was : before.store.db.jobs update.id = some old) {now : Int}
    (stored : after.store.db.jobs update.id = some (update.apply now old)) :
    Judged after (update.apply now old) := by
  have key : old.id = update.id := before.store.db.keyed was
  have own : (update.apply now old).id = update.id := key
  have tried : ∀ {record}, Recorded update.id record (before.log pid) →
      record ∈ after.store.db.attemptsOf (update.apply now old).id := by
    intro record recorded
    rw [own]
    exact attemptsOf_of_step taken stored (invariant.tried was recorded)
  have state : (update.apply now old).state = update.state := rfl
  have error : (update.apply now old).lastError = update.lastError := rfl
  unfold Justified at justified
  constructor
  · intro failed
    rw [← state, failed] at justified
    exact justified
  · intro succeeded
    rw [← state, succeeded] at justified
    obtain ⟨none, record, recorded, delivered⟩ := justified
    exact ⟨none, record, tried recorded, delivered⟩
  · intro dead
    rw [← state, dead] at justified
    obtain ⟨record, job, about, recorded, undelivered, same, reason⟩ :=
      justified
    exact ⟨record, tried (about ▸ recorded.recorded), undelivered, same, pid,
      job, about.trans own.symm, recorded.mono (log_of_step taken pid), reason⟩
  · intro failure shown
    rw [error] at shown
    cases verdict : update.state with
    | succeeded =>
        rw [verdict] at justified
        rw [justified.1] at shown
        cases shown
    | dead =>
        rw [verdict] at justified
        obtain ⟨record, job, about, recorded, _, same, _⟩ := justified
        exact ⟨record, tried (about ▸ recorded.recorded),
          same.symm.trans shown⟩
    | failed =>
        rw [verdict] at justified
        exact justified.elim
    | queued | inFlight =>
        rw [verdict] at justified
        obtain ⟨record, recorded, same⟩ := justified.1 failure shown
        exact ⟨record, tried recorded, same⟩

private theorem judged_after (invariant : VerdictInvariant deployment before)
    (taken : WebhookDelivery.step deployment before action = some after)
    {jobId : JobId} {row : JobRow}
    (stored : after.store.db.jobs jobId = some row) : Judged after row := by
  have own : row.id = jobId := after.store.db.keyed stored
  have same : before.store.db.jobs jobId = some row → Judged after row := by
    intro was
    refine (invariant.judged was).mono (fun record member => ?_)
      (log_of_step taken)
    rw [own] at member ⊢
    exact attemptsOf_of_step taken stored member
  cases steps_of_step taken with
  | @performed _ pid choice process call next rescue resumed found running
      connected resumes =>
      have written := stored
      rw [State.perform_store] at stored
      rcases exec_jobs_cases deployment choice call before.store jobId with
        kept | ⟨update, old, rfl, rfl, was, _, now⟩ | ⟨old, _, _, now⟩ |
          ⟨input, _, _, _, payload, _, now⟩
      · exact same (kept ▸ stored)
      · cases now.symm.trans stored
        exact invariant.judged_of_update taken
          (invariant.passes.disciplined.allowed
            (State.pending?_of_running found running)) was written
      · cases now.symm.trans stored
        exact .of_queued rfl rfl
      · cases now.symm.trans stored
        exact .of_queued rfl rfl
  | deleted => exact same (Option.filter_eq_some_iff.mp stored).1
  | start | failed | crashed | shutdown | promoted | reaped | ticked
  | registered => exact same stored

private theorem read_after (invariant : VerdictInvariant deployment before)
    (taken : WebhookDelivery.step deployment before action = some after)
    {pid : Pid} {jobId : JobId} {job : Job}
    (member : ⟨.findJob jobId, .ok (some job)⟩ ∈ after.log pid)
    (succeeded : job.state = .succeeded) : after.Landed jobId := by
  have grown : before.Landed jobId → after.Landed jobId := by
    rintro ⟨other, request, status, own, good, answered⟩
    exact ⟨other, request, status, own, good,
      mem_log_iff.mp (mem_log_of_step taken (mem_log_iff.mpr answered))⟩
  rcases mem_log_cases taken member with earlier | ⟨choice, _, found, _⟩
  · exact grown (invariant.read earlier succeeded)
  · obtain ⟨row, stored, rfl⟩ :=
      Option.map_eq_some_iff.mp (Except.ok.inj found)
    obtain ⟨_, record, listed, delivered⟩ :=
      (invariant.judged stored).succeeded succeeded
    obtain ⟨listed, own⟩ := mem_attemptsOf.mp listed
    obtain ⟨other, inserted⟩ := invariant.trail listed
    rw [before.store.db.keyed stored] at own
    exact grown (own ▸ invariant.landed inserted delivered)

theorem step (invariant : VerdictInvariant deployment before)
    (taken : WebhookDelivery.step deployment before action = some after) :
    VerdictInvariant deployment after where
  passes := invariant.passes.step taken
  issued := invariant.issued_after taken
  trail := invariant.trail_after taken
  recorded := invariant.recorded_after taken
  judged := invariant.judged_after taken
  read := invariant.read_after taken

theorem of_run {actions : List Action}
    (runs : run (WebhookDelivery.step deployment) State.initial actions =
      some after) : VerdictInvariant deployment after :=
  invariant_of_run runs initial fun _ _ _ invariant taken =>
    invariant.step taken

end VerdictInvariant

/-- In every run, whatever fails, however many workers have the job and
whatever is deleted: every row of `delivery_attempts` was recorded by a process
right after a request with its job and number, and tells its status code, body,
error and duration as this process got them. -/
theorem attempts_as_answered {actions : List Action}
    (runs : run (step deployment) State.initial actions = some after)
    {record : AttemptRecord}
    (member : record ∈ after.store.db.deliveryAttempts) :
    ∃ pid later earlier, after.log pid =
      later ++ ⟨.insertAttempt record, .ok ()⟩ :: earlier ∧
        Reported record earlier := by
  have invariant := VerdictInvariant.of_run runs
  obtain ⟨pid, inserted⟩ := invariant.trail member
  exact ⟨pid, invariant.reported inserted⟩

/-- In every such run: a job is called succeeded only if one of its attempts was
answered with a 2xx status, and dead only if the attempt whose error it shows
has failed for good or was the last one; every error it shows is that of an
attempt; and an attempt with a status code rests on a request that was answered
with it. -/
theorem verdicts_rest_on_attempts {actions : List Action}
    (runs : run (step deployment) State.initial actions = some after)
    {row : JobRow} (stored : after.store.db.jobs row.id = some row) :
    Judged after row ∧ ∀ record ∈ after.store.db.attemptsOf row.id,
      (∀ status ∈ record.statusCode, after.AnsweredWith record status) ∧
        (record.delivered = false → record.error.isSome) := by
  have invariant := VerdictInvariant.of_run runs
  refine ⟨invariant.judged stored, fun record member => ?_⟩
  obtain ⟨pid, inserted⟩ := invariant.trail (mem_attemptsOf.mp member).1
  obtain ⟨_, _, _, reported⟩ := invariant.reported inserted
  exact ⟨fun status known => invariant.answeredWith inserted known,
    reported.failing⟩

/-- In every such run: a job is only acknowledged, and so taken out of the
queue for good, after a request for it has been answered with a 2xx status, or
its row has been found dead or gone. -/
theorem acknowledged_when_done {actions : List Action}
    (runs : run (step deployment) State.initial actions = some after)
    {event : Event} (member : event ∈ after.history) {jobId : JobId}
    (acknowledges : event.call = .ack jobId) :
    after.Landed jobId ∨
      (∃ job, ⟨event.pid, .findJob jobId, .ok (some job)⟩ ∈ after.history ∧
        job.state = .dead) ∨
      ⟨event.pid, .findJob jobId, .ok none⟩ ∈ after.history := by
  have invariant := VerdictInvariant.of_run runs
  obtain ⟨pid, call, outcome⟩ := event
  cases acknowledges
  obtain ⟨later, earlier, split⟩ :=
    List.append_of_mem (mem_log_iff.mpr member)
  have made : ∀ {entry}, entry ∈ earlier → entry ∈ after.log pid := by
    intro entry member
    rw [split]
    exact List.mem_append_right _ (List.mem_cons_of_mem _ member)
  have finished : Finished jobId earlier :=
    invariant.passes.kept pid later _ earlier split
  rcases finished with ⟨_, rfl⟩ | ⟨job, _, rfl, succeeded | dead⟩ |
    ⟨record, ⟨inserted, rfl⟩, delivered⟩
  · exact .inr (.inr (mem_log_iff.mp (made List.mem_cons_self)))
  · exact .inl (invariant.read (made List.mem_cons_self) succeeded)
  · exact .inr (.inl ⟨job, mem_log_iff.mp (made List.mem_cons_self), dead⟩)
  · exact .inl (invariant.landed (made inserted) delivered)

/-- The job waits, is put off or is worked on, in one copy. -/
def State.Pending (state : State) (jobId : JobId) : Prop :=
  (state.places jobId).ready + (state.places jobId).inflight +
    (state.places jobId).delayed = 1

/-- In every run of tolerated steps: a job that some request has been answered
with is in exactly one place, on its way back from `dlq`, delivered, or dead
with the error of the attempt that has decided it. -/
theorem accepted_until_delivered {actions : List Action}
    (runs : run (step deployment) State.initial actions = some after)
    (tolerated : ∀ transition ∈
      transitions (step deployment) State.initial actions,
        Tolerated transition.before transition.action)
    {job : Job} {row : JobRow} (accepted : after.Accepted job)
    (stored : after.store.db.jobs job.id = some row) :
    after.Pending job.id ∨ after.Replaying job.id ∨ after.Landed job.id ∨
    (row.state = .dead ∧ ∃ record ∈ after.store.db.attemptsOf job.id,
      record.delivered = false ∧ row.lastError = record.error ∧
        record.error.isSome) := by
  have places := (Reachable.of_run runs tolerated).invariant OnePlaceInvariant
    .initial fun _ _ _ held allowed taken => held.step allowed taken
  have invariant := VerdictInvariant.of_run runs
  have own : row.id = job.id := after.store.db.keyed stored
  have judged := invariant.judged stored
  have unfinished : row.state = .queued ∨ row.state = .inFlight →
      after.Pending job.id ∨ after.Replaying job.id := by
    intro unfinished
    by_cases replayed : after.Replaying job.id
    · exact .inr replayed
    · exact .inl (places.exactlyOnePlace.kept job row accepted stored
        unfinished replayed)
  cases state : row.state with
  | queued => exact (unfinished (.inl state)).imp_right .inl
  | inFlight => exact (unfinished (.inr state)).imp_right .inl
  | failed => exact absurd state judged.judged
  | succeeded =>
      obtain ⟨_, record, member, delivered⟩ := judged.succeeded state
      obtain ⟨listed, same⟩ := mem_attemptsOf.mp member
      obtain ⟨pid, inserted⟩ := invariant.trail listed
      have landed := invariant.landed inserted delivered
      rw [same, own] at landed
      exact .inr (.inr (.inl landed))
  | dead =>
      obtain ⟨record, member, undelivered, error, _⟩ := judged.dead state
      obtain ⟨pid, inserted⟩ := invariant.trail (mem_attemptsOf.mp member).1
      obtain ⟨_, _, _, reported⟩ := invariant.reported inserted
      rw [own] at member
      exact .inr (.inr (.inr ⟨rfl, record, member, undelivered, error,
        reported.failing undelivered⟩))

/-- The first attempt is answered with a 500, the second with a 200. -/
def retriedOnce : List Action :=
  enqueueOne ++ deliverOnce 1 500 10 ++ .promote 4000 100 :: calls 1 14 ++
    .call 1 {} :: calls 1 5

def failedAttempt : AttemptRecord where
  jobId := 2
  attemptNumber := 1
  statusCode := some 500
  responseBody := some ""
  error := some "HTTP 500"
  durationMs := 0

theorem attempts_as_answered_retriedOnce :
    ∃ after, run (step {}) State.initial retriedOnce = some after ∧
      ∃ pid later earlier, after.log pid =
        later ++ ⟨.insertAttempt failedAttempt, .ok ()⟩ :: earlier ∧
          Reported failedAttempt earlier := by
  have evaluated : (run (step {}) State.initial retriedOnce).map
      (fun after => decide (failedAttempt ∈ after.store.db.deliveryAttempts)) =
        some true := by
    decide +kernel
  obtain ⟨after, runs, listed⟩ := Option.map_eq_some_iff.mp evaluated
  exact ⟨after, runs, attempts_as_answered runs (of_decide_eq_true listed)⟩

theorem verdicts_rest_on_attempts_retriedOnce :
    ∃ after row, run (step {}) State.initial retriedOnce = some after ∧
      after.store.db.jobs 2 = some row ∧ row.state = .succeeded ∧
        Judged after row ∧ ∀ record ∈ after.store.db.attemptsOf row.id,
          (∀ status ∈ record.statusCode, after.AnsweredWith record status) ∧
            (record.delivered = false → record.error.isSome) := by
  have evaluated : ((run (step {}) State.initial retriedOnce).bind
      fun after => after.store.db.jobs 2).map (fun row => (row.id, row.state)) =
        some (2, .succeeded) := by
    decide +kernel
  obtain ⟨row, found, seen⟩ := Option.map_eq_some_iff.mp evaluated
  obtain ⟨after, runs, stored⟩ := Option.bind_eq_some_iff.mp found
  obtain ⟨own, delivered⟩ := Prod.mk.inj seen
  exact ⟨after, row, runs, stored, delivered,
    verdicts_rest_on_attempts runs (own ▸ stored)⟩

theorem accepted_until_delivered_retriedOnce :
    ∃ after row job, run (step {}) State.initial retriedOnce = some after ∧
      after.Accepted job ∧ after.store.db.jobs job.id = some row ∧
        (after.Pending job.id ∨ after.Replaying job.id ∨
          after.Landed job.id ∨ (row.state = .dead ∧
            ∃ record ∈ after.store.db.attemptsOf job.id,
              record.delivered = false ∧ row.lastError = record.error ∧
                record.error.isSome)) := by
  have punctual := @punctual_of_history {} retriedOnce (by decide +kernel)
  have unbroken : ∀ transition ∈
      transitions (step {}) State.initial retriedOnce,
        ¬DropsPopped transition.before transition.action ∧
          ¬BreaksReplay transition.before transition.action := by
    decide +kernel
  have evaluated : (run (step {}) State.initial retriedOnce).bind
      (fun after => (after.answer? 0).bind fun answer =>
        (after.store.db.jobs answer.2.id).map fun row => row.id) =
        some 2 := by
    decide +kernel
  obtain ⟨after, runs, found⟩ := Option.bind_eq_some_iff.mp evaluated
  obtain ⟨⟨input, job⟩, answered, found⟩ := Option.bind_eq_some_iff.mp found
  obtain ⟨row, stored, _⟩ := Option.map_eq_some_iff.mp found
  obtain ⟨process, known, _, returned⟩ := State.returned_of_answer? answered
  have accepted : after.Accepted job := ⟨0, process, known, returned⟩
  exact ⟨after, row, job, runs, accepted, stored,
    accepted_until_delivered runs (fun transition member =>
      ⟨(unbroken transition member).1, (unbroken transition member).2,
        punctual transition member⟩) accepted stored⟩

theorem acknowledged_when_done_retriedOnce :
    ∃ after pid, run (step {}) State.initial (retriedOnce ++ calls 1 1) =
      some after ∧ (after.Landed 2 ∨
        (∃ job, ⟨pid, .findJob 2, .ok (some job)⟩ ∈ after.history ∧
          job.state = .dead) ∨
        ⟨pid, .findJob 2, .ok none⟩ ∈ after.history) := by
  have evaluated : (run (step {}) State.initial (retriedOnce ++ calls 1 1)).map
      (fun after => decide (∃ event ∈ after.history, event.call = .ack 2)) =
        some true := by
    decide +kernel
  obtain ⟨after, runs, found⟩ := Option.map_eq_some_iff.mp evaluated
  obtain ⟨event, member, acknowledges⟩ := of_decide_eq_true found
  exact ⟨after, event.pid, runs,
    acknowledged_when_done runs member acknowledges⟩

end WebhookDelivery
