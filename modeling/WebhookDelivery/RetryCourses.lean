import WebhookDelivery.RetryDiscipline
import WebhookDelivery.Punctual
import WebhookDelivery.AuditTrail

/-!
# The courses of jobs in a run

The course of a job is told from the steps of a run.  This file says what
happens to a job in a step, what is to hold of all jobs as long as every store
answers, no process dies and no worker is overruled, and that the steps of
other processes leave a job alone.
-/

namespace WebhookDelivery

open Concurrency Discipline

/-! ## What happens to a job in a run -/

/-- What a completed call of a process means for a job. -/
def Call.occurrence? (claim : Claim) (jobId : JobId) :
    (call : Call) → Except AppError call.Reply → Option Occurrence
  | .push id, .ok _ => if id = jobId then some .ready else none
  | .pushDelayed id _, .ok _ => if id = jobId then some .delayed else none
  | .checkCircuit _ _ _, .ok reply =>
      if claim = .reserved jobId ∧ reply = .opened then some .deferred
      else none
  | .take _ _ _ _ _, .ok reply =>
      if claim = .reserved jobId ∧ reply.allowed = false then some .deferred
      else none
  | .fetch request, outcome =>
      if request.jobId = jobId then some (.delivered outcome.toOption)
      else none
  | .resetForReplay id, .ok (some _) =>
      if id = jobId then some .reset else none
  | _, _ => none

/-- A job is delivered by a request to the endpoint. -/
theorem Call.fetch_of_delivered {claim : Claim} {jobId : JobId} {call : Call}
    {outcome : Except AppError call.Reply} {status : Option Nat}
    (delivered : call.occurrence? claim jobId outcome =
      some (.delivered status)) : ∃ request, call = .fetch request := by
  unfold occurrence? at delivered
  split at delivered
  case h_5 => exact ⟨_, rfl⟩
  case h_7 => cases delivered
  all_goals split at delivered <;> cases delivered

/-- The calls by which a process lets go of its job, with the position the
job goes to. -/
def Call.letsGo? : Call → Option (JobId × Position)
  | .ack jobId => some (jobId, .gone)
  | .retryLater jobId _ => some (jobId, .delayed)
  | .deadLetter jobId => some (jobId, .deadLettered)
  | .push jobId => some (jobId, .ready)
  | .pushDelayed jobId _ => some (jobId, .delayed)
  | _ => none

/-- What happens to a job in a step. -/
def occurrence? (deployment : Deployment) (jobId : JobId) (state : State) :
    Action → Option Occurrence
  | .promote nowMs batchSize =>
      if jobId ∈ state.store.redis.delayed.rangeByScore nowMs batchSize then
        some .ready
      else none
  | .call pid choice | .failLate pid choice _ =>
      (state.pending? pid).bind fun call =>
        call.occurrence? (state.claim pid) jobId
          (exec deployment choice call state.store).1
  | _ => none

/-- What happens to a job in a run, in order. -/
def occurrences (deployment : Deployment) (jobId : JobId)
    (run : List (Transition State Action)) : List Occurrence :=
  run.filterMap fun transition =>
    occurrence? deployment jobId transition.before transition.action

/-- No process dies, every store answers, and webhooks are registered with a
secret, as `register` does. -/
def Untroubled (deployment : Deployment) (state : State) : Action → Prop
  | .call pid choice => ∀ call ∈ state.pending? pid,
      call.asksEndpoint = false →
        (exec deployment choice call state.store).1.isOk
  | .fail _ _ | .failLate _ _ _ | .crash _ => False
  | .registerWebhook row => row.secret ≠ ""
  | _ => True

instance (deployment : Deployment) (state : State) :
    DecidablePred (Untroubled deployment state) :=
  fun action => by
    induction action using Action.casesOn <;> unfold Untroubled <;> infer_instance

/-- Steps in which besides no worker is overruled. -/
def Steady (deployment : Deployment) (state : State) (action : Action) :
    Prop :=
  ¬Overrules state action ∧ Untroubled deployment state action

/-- The places of a job that nobody holds. -/
def Position.places : Position → Places
  | .ready => ⟨1, 0, 0, 0, 0⟩
  | .delayed => ⟨0, 0, 0, 1, 0⟩
  | .deadLettered => ⟨0, 0, 0, 0, 1⟩
  | .gone => ⟨0, 0, 0, 0, 0⟩

namespace State

/-- How many deliveries of a job are on record. -/
def records (state : State) (jobId : JobId) : Nat :=
  (state.store.db.attemptsOf jobId).length

def Unheld (state : State) (jobId : JobId) : Prop :=
  ∀ pid, (state.claim pid).holds? ≠ some jobId

def courseView (courses : JobId → Course) (claim : Claim) (state : State) :
    CourseView where
  claim := claim
  row := claim.job?.bind state.store.db.jobs
  records := claim.job?.elim 0 state.records
  course := claim.job?.elim .fresh courses

/-- The courses of all jobs after a step. -/
def advance (deployment : Deployment) (state : State) (action : Action)
    (courses : JobId → Course) (jobId : JobId) : Course :=
  match occurrence? deployment jobId state action with
  | some occurrence =>
      (courses jobId).next deployment.maxAttempts occurrence
  | none => courses jobId

end State

variable {deployment : Deployment} {before after : State} {action : Action}
  {courses : JobId → Course}

theorem courseView_of_job {state : State} {claim : Claim} {jobId : JobId}
    (about : claim.job? = some jobId) :
    state.courseView courses claim =
      ⟨claim, state.store.db.jobs jobId, state.records jobId,
        courses jobId⟩ := by
  simp [State.courseView, about]

/-- Custody of the ids and knowledge of the rows, and every job that nobody
holds is where its course has led it. -/
structure CourseInvariant (deployment : Deployment)
    (courses : JobId → Course) (state : State) : Prop where
  rows : RowInvariant True state
  unoverruled : state.Unoverruled
  disciplined : state.Disciplined (courseDiscipline deployment.maxAttempts)
    (fun _ => State.courseView courses) CourseDiscipline.LetGo
  tallies : ∀ {jobId row}, state.store.db.jobs jobId = some row →
    state.Unheld jobId → ∃ position,
      Tallies deployment.maxAttempts position row (state.records jobId)
        (courses jobId) ∧ state.places jobId = position.places
  within : ∀ {jobId row}, state.store.db.jobs jobId = some row →
    (courses jobId).attempts ≤ deployment.maxAttempts ∧
      row.maxAttempts = deployment.maxAttempts
  unissued : ∀ {jobId}, jobId ∉ state.store.db.issued →
    courses jobId = .fresh ∧ state.records jobId = 0
  registered : ∀ {jobId row}, state.store.db.jobs jobId = some row →
    ∃ webhook, state.store.db.webhooks row.webhookId = some webhook
  secret : ∀ {id webhook}, state.store.db.webhooks id = some webhook →
    webhook.secret ≠ ""

namespace CourseInvariant

theorem initial : CourseInvariant deployment (fun _ => .fresh) State.initial
    where
  rows := .initial
  unoverruled := .initial
  disciplined _ _ _ found := by cases found
  tallies stored := by cases stored
  within stored := by cases stored
  unissued _ := ⟨rfl, rfl⟩
  registered stored := by cases stored
  secret found := by cases found

variable {state : State} {pid : Pid} {call : Call} {jobId : JobId}
  {row : JobRow}

/-- What the course discipline promises at the pending call of a process. -/
theorem permits (invariant : CourseInvariant deployment courses state)
    (pending : state.pending? pid = some call) :
    (state.courseView courses (state.claim pid)).Permits
      deployment.maxAttempts call := by
  exact invariant.disciplined.allowed pending

theorem claims (invariant : CourseInvariant deployment courses state)
    (pending : state.pending? pid = some call) :
    (state.claim pid).Permits call := by
  exact invariant.rows.queue.permits pending

/-- Something happens to a job by a call of the process that holds it. -/
theorem holds_of_occurrence
    (invariant : CourseInvariant deployment courses state)
    (pending : state.pending? pid = some call)
    {outcome : Except AppError call.Reply} {occurrence : Occurrence}
    (occurs : call.occurrence? (state.claim pid) jobId outcome =
      some occurrence) :
    (state.claim pid).holds? = some jobId := by
  have permits := invariant.permits pending
  have claims := invariant.claims pending
  unfold Call.occurrence? at occurs
  split at occurs
  · split at occurs
    next same =>
      subst same
      rcases claims with inserted | replaying
      · rw [inserted]
        rfl
      · rw [replaying]
        rfl
    · cases occurs
  · split at occurs
    next same =>
      subst same
      rw [show state.claim pid = .inserted _ from claims]
      rfl
    · cases occurs
  · split at occurs
    next reserved =>
      rw [reserved.1]
      rfl
    · cases occurs
  · split at occurs
    next reserved =>
      rw [reserved.1]
      rfl
    · cases occurs
  · split at occurs
    next same =>
      subst same
      rw [show state.claim pid = .reserved _ from permits.1]
      rfl
    · cases occurs
  · split at occurs
    next same =>
      subst same
      rw [show state.claim pid = .replaying _ from claims]
      rfl
    · cases occurs
  · cases occurs

/-- A record is written by the process that holds the job. -/
theorem holds_of_recorded
    (invariant : CourseInvariant deployment courses state)
    (pending : state.pending? pid = some call)
    {outcome : Except AppError call.Reply}
    (recorded : Event.recorded? ⟨pid, call, outcome⟩ = some jobId) :
    (state.claim pid).holds? = some jobId := by
  have permits := invariant.permits pending
  cases call with
  | insertAttempt record =>
      have same : record.jobId = jobId := by
        cases outcome with
        | ok reply => exact Option.some.inj recorded
        | error failure => cases recorded
      subst same
      rw [show state.claim pid = .reserved _ from permits]
      rfl
  | _ => cases recorded

end CourseInvariant

/-- A call adds to the records of a job what it records. -/
theorem exec_records (deployment : Deployment) (choice : Choice)
    (call : Call) (store : Store) (pid : Pid) (jobId : JobId) :
    ((exec deployment choice call store).2.db.attemptsOf jobId).length =
      (store.db.attemptsOf jobId).length +
        if Event.recorded? ⟨pid, call, (exec deployment choice call store).1⟩ =
          some jobId then 1 else 0 := by
  rcases exec_deliveryAttempts deployment choice call store pid with
    ⟨same, unrecorded⟩ | ⟨record, _, _, appended, recorded⟩
  · rw [attemptsOf_congr same, unrecorded]
    rfl
  · rw [recorded, Postgres.attemptsOf, appended, List.filter_append,
      List.length_append]
    by_cases same : record.jobId = jobId
    · simp [Postgres.attemptsOf, same]
    · simp [Postgres.attemptsOf, same]

/-- Deleting a webhook keeps the records of every job that stays. -/
theorem attemptsOf_deleteWebhook {db : Postgres} {id : WebhookId}
    {jobId : JobId} {row : JobRow}
    (stays : (db.deleteWebhook id).jobs jobId = some row) :
    (db.deleteWebhook id).attemptsOf jobId = db.attemptsOf jobId := by
  simp only [Postgres.attemptsOf, Postgres.deleteWebhook, List.filter_filter]
  refine List.filter_congr fun record _ => ?_
  by_cases same : record.jobId = jobId
  · have found : (db.jobs jobId).filter (fun row =>
        decide (row.webhookId ≠ id)) = some row := stays
    rw [same, found]
    simp
  · simp [same]

namespace CourseInvariant

variable {pid : Pid} {call : Call} {jobId : JobId} {row : JobRow}

/-- No process that holds the job makes a call in this step. -/
def Apart (before : State) (action : Action) (jobId : JobId) : Prop :=
  ∀ pid, action.performer? = some pid →
    (before.claim pid).holds? ≠ some jobId

/-- Nothing happens to a job in a step of somebody else, unless the job is
promoted. -/
theorem occurrence_of_apart
    (invariant : CourseInvariant deployment courses before)
    (apart : Apart before action jobId) :
    occurrence? deployment jobId before action = none ∨
      ∃ nowMs batchSize, action = .promote nowMs batchSize ∧
        jobId ∈ before.store.redis.delayed.rangeByScore nowMs batchSize := by
  have performs : ∀ {pid choice}, action.performer? = some pid →
      ((before.pending? pid).bind fun call =>
        call.occurrence? (before.claim pid) jobId
          (exec deployment choice call before.store).1) = none := by
    intro pid choice performs
    cases pending : before.pending? pid with
    | none => rfl
    | some call =>
        rw [Option.bind_some]
        by_contra occurs
        obtain ⟨occurrence, occurs⟩ := Option.ne_none_iff_exists'.mp occurs
        exact apart pid performs (invariant.holds_of_occurrence pending occurs)
  cases action with
  | promote nowMs batchSize =>
      by_cases due :
          jobId ∈ before.store.redis.delayed.rangeByScore nowMs batchSize
      · exact .inr ⟨nowMs, batchSize, rfl, due⟩
      · exact .inl (if_neg due)
  | call pid choice => exact .inl (performs rfl)
  | failLate pid choice failure => exact .inl (performs rfl)
  | _ => exact .inl rfl

/-- A step of somebody else leaves the row and the records of a job alone. -/
theorem kept_of_apart (invariant : CourseInvariant deployment courses before)
    (taken : WebhookDelivery.step deployment before action = some after)
    (apart : Apart before action jobId)
    (known : jobId ∈ before.store.db.issued)
    (stored : after.store.db.jobs jobId = some row) :
    before.store.db.jobs jobId = some row ∧
      after.records jobId = before.records jobId := by
  constructor
  · cases row_of_step invariant.rows.queue
      (invariant.unoverruled.quiet action) taken stored with
    | kept was => exact was
    | inserted _ _ unissued => exact absurd known unissued
    | updated pid _ _ _ performs _ works =>
        rcases works with reserved | ⟨superseded, _⟩
        · exact absurd (by rw [reserved]; rfl) (apart pid performs)
        · exact absurd superseded (invariant.unoverruled pid jobId)
    | reset pid _ _ performs _ replaying =>
        exact absurd (by rw [replaying]; rfl) (apart pid performs)
  · cases steps_of_step taken with
    | @performed _ pid choice process call next rescue resumed found running
        connected resumes =>
        have pending := State.pending?_of_running found running
        rw [State.records, State.perform_store, exec_records _ _ _ _ pid,
          if_neg]
        · rfl
        · exact fun recorded => apart pid resumes.performer?.1
            (invariant.holds_of_recorded pending recorded)
    | deleted => exact congrArg List.length (attemptsOf_deleteWebhook stored)
    | _ => rfl

/-- A process that holds a job finds it as it left it. -/
theorem rely_of_other (invariant : CourseInvariant deployment courses before)
    (steady : Steady deployment before action)
    (taken : WebhookDelivery.step deployment before action = some after)
    (other : action.actor? ≠ some pid) :
    (before.courseView courses (before.claim pid)).Rely
      (after.courseView (before.advance deployment action courses)
        (after.claim pid)) := by
  have same : after.claim pid = before.claim pid := by
    rcases overruled_of_other taken other with same | ⟨id, _, overruled⟩
    · exact same
    · exact absurd overruled
        (invariant.unoverruled.step steady.1 taken pid id)
  rw [same]
  refine ⟨rfl, fun row found => ?_⟩
  cases about : (before.claim pid).job? with
  | none =>
      simp only [State.courseView, about] at found
      cases found
  | some jobId =>
      rw [courseView_of_job about] at found ⊢
      rw [courseView_of_job about]
      have held : (before.claim pid).holds? = some jobId := by
        cases claimed : before.claim pid with
        | superseded id =>
            exact absurd claimed (invariant.unoverruled pid id)
        | _ => rwa [claimed] at about
      have custody := invariant.rows.queue.custody jobId
      have apart : Apart before action jobId := by
        intro actor performs held'
        rw [custody.exclusive held' held] at performs
        exact other (Action.actor?_of_performer? performs)
      obtain ⟨was, records⟩ := invariant.kept_of_apart taken apart
        (custody.issued_of_claim held) found
      refine ⟨was, records, ?_⟩
      rcases invariant.occurrence_of_apart apart with
        none | ⟨nowMs, batchSize, _, due⟩
      · show State.advance _ _ _ _ _ = _
        rw [State.advance, none]
      · have waiting := Redis.delayed_of_mem_range due
        exact absurd held (custody.unheld_of_waiting
          (by simp only [State.places]; omega) pid)

end CourseInvariant

end WebhookDelivery
