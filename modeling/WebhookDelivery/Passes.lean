import WebhookDelivery.Library.Logged
import WebhookDelivery.TraceInvariant
import WebhookDelivery.Senders

/-!
# The pass of a worker

A worker sends a request only at the end of one pass through `reserve`,
`process` and `deliver`: it has claimed the job, recorded its lease, read the
row, been let through by the breaker and been granted a token, in this order
and with nothing in between.  After the request it records what it was answered,
and only then gives its verdict on the job.  The system-wide statements about
requests and verdicts are read off this pass.
-/

namespace WebhookDelivery

open Concurrency Program Discipline

abbrev Entry : Type := Logged Call Call.Reply AppError

def Event.entry (event : Event) : Entry :=
  ⟨event.call, event.outcome⟩

/-- The request that a call has sent. -/
def Event.request? (event : Event) : Option DeliveryRequest :=
  event.call.request?

theorem Event.call_of_request? {event : Event} {request : DeliveryRequest}
    (asks : event.request? = some request) : event.call = .fetch request := by
  obtain ⟨pid, call, outcome⟩ := event
  cases call with
  | fetch sent =>
      cases asks
      rfl
  | _ => cases asks

/-- The calls a process has completed, latest first. -/
def State.log (state : State) (pid : Pid) : List Entry :=
  (state.own pid).map Event.entry

/-- What a worker has been told on its way to a request. -/
structure Pass where
  jobId : JobId
  leasedAt : Int
  job : Job
  checkedAt : Int
  circuit : CircuitState
  takenAt : Int
  rate : RateResult
  updated : Option Job
  webhook : Webhook
  secret : String
  attempt : Nat
  startedAt : Int
  timestamp : Int

namespace Pass

variable (deployment : Deployment) (pass : Pass)

/-- `reserve`. -/
def reserving (jobId : JobId) (leasedAt : Int) : List Entry :=
  [⟨.zaddLease jobId (leasedAt + Queue.visibilityTimeoutMs), .ok ()⟩,
    ⟨.now, .ok leasedAt⟩, ⟨.brpoplpush, .ok (some jobId)⟩]

/-- `Circuit.check`. -/
def checking : List Entry :=
  [⟨.checkCircuit pass.job.webhookId pass.checkedAt deployment.cooldownMs,
      .ok pass.circuit⟩,
    ⟨.now, .ok pass.checkedAt⟩]

/-- `RateLimit.take`. -/
def taking : List Entry :=
  [⟨.take pass.job.webhookId deployment.perSecond deployment.burst
      pass.takenAt 1, .ok pass.rate⟩,
    ⟨.now, .ok pass.takenAt⟩]

/-- `deliverJob` up to the request. -/
def preparing : List Entry :=
  [⟨.now, .ok pass.timestamp⟩, ⟨.now, .ok pass.startedAt⟩,
    ⟨.nextAttemptNumber pass.job.id, .ok pass.attempt⟩,
    ⟨.findSecret pass.job.webhookId, .ok (some pass.secret)⟩,
    ⟨.findWebhook pass.job.webhookId, .ok (some pass.webhook)⟩,
    ⟨.updateState { id := pass.job.id, state := .inFlight },
      .ok pass.updated⟩]

/-- The whole pass, latest call first. -/
def calls : List Entry :=
  pass.preparing ++ (pass.taking deployment ++ (pass.checking deployment ++
    (⟨.findJob pass.jobId, .ok (some pass.job)⟩ ::
      reserving pass.jobId pass.leasedAt)))

/-- The answers that let a worker go on to the request. -/
structure Cleared : Prop where
  own : pass.job.id = pass.jobId
  unfinished : pass.job.state ≠ .succeeded ∧ pass.job.state ≠ .dead
  closed : pass.circuit ≠ .opened
  granted : pass.rate.allowed = true
  signed : pass.secret ≠ ""

/-- The request a pass ends in. -/
def request : DeliveryRequest where
  url := pass.webhook.url
  eventType := pass.job.eventType
  jobId := pass.job.id
  attempt := pass.attempt
  timestamp := pass.timestamp
  signature := "v1=" ++
    DeliveryService.sign deployment pass.secret pass.timestamp pass.job.payload
  body := pass.job.payload

end Pass

/-- The request is the end of a pass. -/
def Passed (deployment : Deployment) (request : DeliveryRequest)
    (log : List Entry) : Prop :=
  ∃ pass : Pass, pass.Cleared ∧ request = pass.request deployment ∧
    ∃ earlier, log = pass.calls deployment ++ earlier

/-- The webhook of a job has been found active and owned by its tenant. -/
def Admitted (input : JobInput) (log : List Entry) : Prop :=
  ∃ webhook, ⟨.findWebhook input.webhookId, .ok (some webhook)⟩ ∈ log ∧
    webhook.tenant = input.tenant ∧ webhook.isActive = true

theorem Admitted.cons {input : JobInput} {log : List Entry}
    (admitted : Admitted input log) (entry : Entry) :
    Admitted input (entry :: log) := by
  obtain ⟨webhook, found, owned⟩ := admitted
  exact ⟨webhook, List.mem_cons_of_mem _ found, owned⟩

/-- A token is taken at the time just read, with the configured rate. -/
def Metered (deployment : Deployment) (rate burst now cost : Int)
    (log : List Entry) : Prop :=
  rate = deployment.perSecond ∧ burst = deployment.burst ∧ cost = 1 ∧
    ∃ earlier, log = ⟨.now, .ok now⟩ :: earlier

/-- What a worker makes of the answers to the calls for its request, which come
latest first: the failure of `fetch`, a status and the failure of reading the
body, or a status and a body. -/
inductive Heard (request : DeliveryRequest) :
    Option Nat → Option String → Option String → List Entry → Prop
  | failed (failure : AppError) :
      Heard request none none (some failure.message)
        [⟨.fetch request, .error failure⟩]
  | cutOff (status : Nat) (failure : AppError) :
      Heard request (some status) none (some failure.message)
        [⟨.responseText, .error failure⟩, ⟨.fetch request, .ok status⟩]
  | read (status : Nat) (text : String) :
      Heard request (some status)
        (some (String.ofList (DeliveryService.sliceUnits
          DeliveryService.maxBodyChars text.toList)))
        (if DeliveryService.isOk status then none else some s!"HTTP {status}")
        [⟨.responseText, .ok text⟩, ⟨.fetch request, .ok status⟩]

/-- The record tells what the calls since the attempt number was read came
to. -/
def Reported (record : AttemptRecord) (log : List Entry) : Prop :=
  ∃ request calls startedAt endedAt earlier,
    request.jobId = record.jobId ∧ request.attempt = record.attemptNumber ∧
    Heard request record.statusCode record.responseBody record.error calls ∧
    record.durationMs = endedAt - startedAt ∧
    log = ⟨.now, .ok endedAt⟩ :: (calls ++
      ⟨.now, .ok request.timestamp⟩ :: ⟨.now, .ok startedAt⟩ ::
        ⟨.nextAttemptNumber record.jobId, .ok record.attemptNumber⟩ ::
          earlier)

/-- The endpoint has accepted the attempt. -/
def AttemptRecord.delivered (record : AttemptRecord) : Bool :=
  record.statusCode.any DeliveryService.isOk

/-- The attempt has been recorded for the job. -/
def Recorded (jobId : JobId) (record : AttemptRecord) (log : List Entry) :
    Prop :=
  ⟨.insertAttempt record, .ok ()⟩ ∈ log ∧ record.jobId = jobId

/-- What a process has last read of the row of a job. -/
def lastRead (jobId : JobId) : List Entry → Option Job
  | [] => none
  | ⟨.findJob id, .ok found⟩ :: earlier =>
      if id = jobId then found else lastRead jobId earlier
  | _ :: earlier => lastRead jobId earlier

/-- The attempt has been recorded by the process for a job that it had last read
as given. -/
def RecordedFor (job : Job) (record : AttemptRecord) (log : List Entry) :
    Prop :=
  record.jobId = job.id ∧ ∃ earlier,
    ⟨.insertAttempt record, .ok ()⟩ :: earlier <:+ log ∧
      lastRead job.id earlier = some job

theorem RecordedFor.recorded {job : Job} {record : AttemptRecord}
    {log : List Entry} (recorded : RecordedFor job record log) :
    Recorded job.id record log := by
  obtain ⟨own, earlier, suffix, _⟩ := recorded
  exact ⟨suffix.subset List.mem_cons_self, own⟩

theorem RecordedFor.mono {job : Job} {record : AttemptRecord}
    {log now : List Entry} (recorded : RecordedFor job record log)
    (grown : log <:+ now) : RecordedFor job record now := by
  obtain ⟨own, earlier, suffix, read⟩ := recorded
  exact ⟨own, earlier, suffix.trans grown, read⟩

/-- What a worker writes into a row is the verdict of an attempt it has
recorded, or leaves the verdict open; it counts an attempt without a verdict
when the row, as it was read, had more than one left. -/
def Justified (update : StateUpdate) (log : List Entry) : Prop :=
  match update.state with
  | .succeeded => update.lastError = none ∧
      ∃ record, Recorded update.id record log ∧ record.delivered = true
  | .dead => ∃ record job, job.id = update.id ∧ RecordedFor job record log ∧
      record.delivered = false ∧ update.lastError = record.error ∧
      (Backoff.isRetryable record.statusCode = false ∨
        job.maxAttempts ≤ job.attempts + 1)
  | .queued | .inFlight =>
      (∀ error ∈ update.lastError, ∃ record,
        Recorded update.id record log ∧ record.error = some error) ∧
      (update.incrementAttempts = true → ∃ job,
        lastRead update.id log = some job ∧
          job.attempts + 1 < job.maxAttempts)
  | .failed => False

/-- A worker acknowledges a job that it has found gone or finished, or whose
attempt it has recorded as delivered. -/
def Finished (jobId : JobId) (log : List Entry) : Prop :=
  (∃ earlier, log = ⟨.findJob jobId, .ok none⟩ :: earlier) ∨
  (∃ job earlier, log = ⟨.findJob jobId, .ok (some job)⟩ :: earlier ∧
    (job.state = .succeeded ∨ job.state = .dead)) ∨
  ∃ record, Recorded jobId record log ∧ record.delivered = true

/-- What a process has done before a call. -/
def Guarded (deployment : Deployment) (log : List Entry) : Call → Prop
  | .fetch request => Passed deployment request log
  | .insertAttempt record => Reported record log
  | .updateState update => Justified update log
  | .ack jobId => Finished jobId log
  | .insertJob input => Admitted input log
  | .take _ rate burst now cost => Metered deployment rate burst now cost log
  | .checkCircuit _ _ cooldownMs => cooldownMs = deployment.cooldownMs
  | .recordFailure _ threshold _ => threshold = deployment.failureThreshold
  | _ => True

namespace Call

/-- The calls that are not guarded by what was before. -/
def free (deployment : Deployment) : Call → Bool
  | .fetch _ | .insertAttempt _ | .insertJob _ | .take _ _ _ _ _
  | .checkCircuit _ _ _ | .ack _ => false
  | .updateState update => decide (update.lastError = none ∧
      update.incrementAttempts = false ∧
      (update.state = .queued ∨ update.state = .inFlight))
  | .recordFailure _ threshold _ =>
      decide (threshold = deployment.failureThreshold)
  | _ => true

end Call

/-- Nothing else has been read of any row since. -/
def Unread (log now : List Entry) : Prop :=
  ∃ more, now = more ++ log ∧ ∀ entry ∈ more, entry.request.reads = false

theorem Unread.suffix {log now : List Entry} (unread : Unread log now) :
    log <:+ now := by
  obtain ⟨more, rfl, _⟩ := unread
  exact List.suffix_append more log

theorem Unread.trans {log between now : List Entry}
    (first : Unread log between) (second : Unread between now) :
    Unread log now := by
  obtain ⟨more, rfl, quiet⟩ := first
  obtain ⟨later, rfl, quietToo⟩ := second
  refine ⟨later ++ more, (List.append_assoc ..).symm, fun entry member => ?_⟩
  exact (List.mem_append.mp member).elim (quietToo entry) (quiet entry)

theorem Unread.cons {log now : List Entry} (unread : Unread log now)
    {entry : Entry} (quiet : entry.request.reads = false) :
    Unread log (entry :: now) :=
  unread.trans ⟨[entry], rfl, by simpa using quiet⟩

theorem Unread.refl (log : List Entry) : Unread log log :=
  ⟨[], rfl, List.forall_mem_nil _⟩

theorem Unread.lastRead {log now : List Entry} (unread : Unread log now)
    (jobId : JobId) : lastRead jobId now = lastRead jobId log := by
  obtain ⟨more, rfl, quiet⟩ := unread
  induction more with
  | nil => rfl
  | cons entry more ih =>
      rw [List.forall_mem_cons] at quiet
      refine Eq.trans ?_ (ih quiet.2)
      obtain ⟨call, outcome⟩ := entry
      cases call with
      | findJob id => cases quiet.1
      | _ => rfl

theorem Heard.unread {request : DeliveryRequest} {statusCode : Option Nat}
    {responseBody error : Option String} {calls : List Entry}
    (heard : Heard request statusCode responseBody error calls)
    (log : List Entry) : Unread log (calls ++ log) := by
  refine ⟨calls, rfl, ?_⟩
  cases heard <;> simp [Call.reads]

theorem guarded_of_free {deployment : Deployment} (log : List Entry)
    (call : Call) (free : call.free deployment = true) :
    Guarded deployment log call := by
  cases call with
  | recordFailure webhookId threshold now =>
      have same : threshold = deployment.failureThreshold :=
        of_decide_eq_true free
      exact same
  | updateState update =>
      obtain ⟨none, uncounted, undecided⟩ : update.lastError = none ∧
          update.incrementAttempts = false ∧
          (update.state = .queued ∨ update.state = .inFlight) :=
        of_decide_eq_true free
      rcases undecided with queued | inFlight
      · simp [Guarded, Justified, none, uncounted, queued]
      · simp [Guarded, Justified, none, uncounted, inFlight]
  | _ => trivial

/-- The discipline of passes. -/
abbrev passDiscipline (deployment : Deployment) :
    Discipline Call Call.Reply AppError :=
  logging Call.Answers (fun call => call.onStore = true) (Guarded deployment)

namespace Passes

open Logging

variable {deployment : Deployment} {log : List Entry} {Value Next : Type}
  {program : Async Value}

/-- Any end is fine. -/
abbrev Ends (_ : List Entry) (_ : Except AppError Value) : Prop := True

theorem ends_of_free
    (within : program.Within fun call => call.free deployment = true) :
    (passDiscipline deployment).Follows Ends program log :=
  follows_free within guarded_of_free fun _ _ _ => trivial

/-! ## Programs without guarded calls -/

theorem free_of_slots {call : Call} (slots : call.slots = true) :
    call.free deployment = true := by
  cases call <;> first | rfl | cases slots

theorem free_of_replays {call : Call} (replays : call.replays = true) :
    call.free deployment = true := by
  cases call <;> first | rfl | cases replays

theorem deferUntil_free (jobId : JobId) (job : Job) (runAtMs : Int) :
    (JobService.deferUntil jobId job runAtMs).Within
      fun call => call.free deployment = true :=
  .bind (.perform rfl) fun _ => .perform rfl

theorem recordFailure_free (deployment : Deployment) (webhookId : WebhookId) :
    (Circuit.recordFailure webhookId deployment.failureThreshold).Within
      fun call => call.free deployment = true ∧ call.reads = false :=
  .bind (.perform ⟨rfl, rfl⟩) fun _ => .perform ⟨decide_eq_true rfl, rfl⟩

/-! ## The verdict -/

/-- Calls that are not guarded only add to the log. -/
theorem grows_of_free (within : program.Within fun call =>
      call.free deployment = true ∧ call.reads = false) :
    (passDiscipline deployment).Follows
      (fun now outcome => ∀ value, outcome = .ok value → Unread log now)
      program log :=
  follows_free within (fun log call free => guarded_of_free log call free.1)
    fun more _ free _ _ => ⟨more, rfl, fun entry member =>
      (free entry member).2⟩

/-- The result tells what the attempt that has been recorded came to. -/
def Concluded (job : Job) (result : DeliveryService.DeliveryResult)
    (log : List Entry) : Prop :=
  ∃ record, RecordedFor job record log ∧ result.success = record.delivered ∧
    result.error = record.error ∧
    result.retryable =
      (!record.delivered && Backoff.isRetryable record.statusCode)

theorem settle_follows {jobId : JobId} {job : Job} (own : job.id = jobId)
    {result : DeliveryService.DeliveryResult}
    (concluded : Concluded job result log)
    (read : lastRead job.id log = some job) :
    (passDiscipline deployment).Follows Ends
      (JobService.settle deployment jobId job result) log := by
  obtain ⟨record, recorded, success, error, retryable⟩ := concluded
  have later : ∀ {now}, Unread log now → RecordedFor job record now :=
    fun unread => recorded.mono unread.suffix
  unfold JobService.settle
  split
  next succeeded =>
    refine follows_call (fun _ _ => trivial) trivial fun _ _ => ?_
    have delivered : record.delivered = true := success ▸ succeeded
    refine follows_call (fun _ _ => trivial) ⟨rfl, record,
      (later ((Unread.refl log).cons rfl)).recorded, delivered⟩ fun _ _ => ?_
    refine follows_last (fun _ _ => trivial) (.inr (.inr ⟨record, ?_,
      delivered⟩)) fun _ => trivial
    exact own ▸ (later (((Unread.refl log).cons rfl).cons rfl)).recorded
  next failed =>
    have undelivered : record.delivered = false := by
      rw [← success]
      simpa using failed
    refine follows_bind (fun _ _ => trivial)
      (grows_of_free (recordFailure_free _ _)) fun _ now unread => ?_
    dsimp only
    split
    next final =>
      refine follows_call (fun _ _ => trivial) ?_ fun _ _ =>
        ends_of_free (.perform rfl)
      refine ⟨record, job, rfl, later unread, undelivered, error, ?_⟩
      simpa [retryable, undelivered] using final
    next again =>
      refine follows_bind (fun _ _ => trivial)
        (grows_of_free (.bind (.perform ⟨rfl, rfl⟩) fun _ => trivial))
        fun delayMs _ more => ?_
      refine follows_call (fun _ _ => trivial) trivial fun time _ => ?_
      refine follows_call (fun _ _ => trivial) ?_ fun _ _ =>
        ends_of_free (.perform rfl)
      have unread := (unread.trans more).cons
        (show (⟨.now, .ok time⟩ : Entry).request.reads = false from rfl)
      refine ⟨fun failure fails => ⟨record, (later unread).recorded,
        error.symm.trans fails⟩, fun _ => ⟨job, ?_, ?_⟩⟩
      · exact (unread.lastRead job.id).trans read
      · simp only [Bool.or_eq_true, decide_eq_true_eq, not_or] at again
        omega

/-! ## The worker -/

/-- A worker that `reserve` returns a job to has claimed it. -/
theorem reserve_follows :
    (passDiscipline deployment).Follows (fun now outcome =>
      ∀ jobId, outcome = .ok (some jobId) →
        ∃ leasedAt, now = Pass.reserving jobId leasedAt ++ log)
      Queue.reserve log := by
  refine follows_call (fun _ _ _ same => by cases same) trivial fun popped _ => ?_
  cases popped with
  | none => exact follows_pure fun _ same => by cases same
  | some jobId =>
      refine follows_call (fun _ _ _ same => by cases same) trivial
        fun leasedAt _ => ?_
      refine follows_call (fun _ _ _ same => by cases same) trivial
        fun _ _ => ?_
      refine follows_pure fun _ same => ?_
      cases same
      exact ⟨leasedAt, rfl⟩

theorem check_follows {webhookId : WebhookId} :
    (passDiscipline deployment).Follows (fun now outcome =>
      ∀ state, outcome = .ok state → ∃ checkedAt,
        now = [⟨.checkCircuit webhookId checkedAt deployment.cooldownMs,
            .ok state⟩,
          ⟨.now, .ok checkedAt⟩] ++ log)
      (Circuit.check webhookId deployment.cooldownMs) log := by
  refine follows_call (fun _ _ _ same => by cases same) trivial
    fun checkedAt _ => ?_
  refine follows_last (fun _ _ _ same => by cases same) rfl
    fun state _ same => ?_
  cases same
  exact ⟨checkedAt, rfl⟩

theorem take_follows {webhookId : WebhookId} :
    (passDiscipline deployment).Follows (fun now outcome =>
      ∀ rate, outcome = .ok rate → ∃ takenAt,
        now = [⟨.take webhookId deployment.perSecond deployment.burst takenAt
            1, .ok rate⟩,
          ⟨.now, .ok takenAt⟩] ++ log)
      (RateLimit.take webhookId deployment.perSecond deployment.burst) log := by
  refine follows_call (fun _ _ _ same => by cases same) trivial
    fun takenAt _ => ?_
  refine follows_last (fun _ _ _ same => by cases same)
    ⟨rfl, rfl, rfl, log, rfl⟩ fun rate _ same => ?_
  cases same
  exact ⟨takenAt, rfl⟩

theorem getById_follows {webhookId : WebhookId} :
    (passDiscipline deployment).Follows (fun now outcome =>
      ∀ webhook, outcome = .ok webhook →
        now = ⟨.findWebhook webhookId, .ok (some webhook)⟩ :: log)
      (WebhookService.getById webhookId) log := by
  refine follows_call (fun _ _ _ same => by cases same) trivial fun found _ => ?_
  cases found with
  | none => exact follows_throw fun _ same => by cases same
  | some webhook =>
      refine follows_pure fun _ same => ?_
      cases same
      rfl

theorem getSecret_follows {webhookId : WebhookId} :
    (passDiscipline deployment).Follows (fun now outcome =>
      ∀ secret, outcome = .ok secret → secret ≠ "" ∧
        now = ⟨.findSecret webhookId, .ok (some secret)⟩ :: log)
      (WebhookService.getSecret webhookId) log := by
  refine follows_call (fun _ _ _ same => by cases same) trivial fun found _ => ?_
  cases found with
  | none => exact follows_throw fun _ same => by cases same
  | some secret =>
      dsimp only
      split
      · exact follows_throw fun _ same => by cases same
      next nonempty =>
        refine follows_pure fun _ same => ?_
        cases same
        exact ⟨nonempty, rfl⟩

/-- What `send` returns is what its calls were answered. -/
theorem send_follows {request : DeliveryRequest}
    (passed : Passed deployment request log) :
    (passDiscipline deployment).Follows (fun now outcome =>
      ∀ told, outcome = .ok told → ∃ calls,
        Heard request told.1 told.2.1 told.2.2 calls ∧ now = calls ++ log)
      (DeliveryService.send request) log := by
  -- Neither call is one on a store, so each has an outcome that is heard.
  refine Follows.bind (Follows.attempt (follows_perform passed
    (fun stored => by cases stored) (fun stored => by cases stored) ?_ ?_))
  · intro failure
    refine follows_pure fun _ same => ?_
    cases same
    exact ⟨_, .failed failure, rfl⟩
  · intro status
    refine Follows.bind (Follows.attempt (follows_perform trivial
      (fun stored => by cases stored) (fun stored => by cases stored) ?_ ?_))
    · intro failure
      refine follows_pure fun _ same => ?_
      cases same
      exact ⟨_, .cutOff status failure, rfl⟩
    · intro text
      refine follows_pure fun _ same => ?_
      cases same
      exact ⟨_, .read status text, rfl⟩

theorem deliver_follows (pass : Pass) (cleared : pass.Cleared)
    (earlier : List Entry) (read : lastRead pass.job.id log = some pass.job)
    (told : log = pass.preparing.drop 3 ++ (pass.taking deployment ++
      (pass.checking deployment ++ (⟨.findJob pass.jobId,
        .ok (some pass.job)⟩ :: (Pass.reserving pass.jobId pass.leasedAt ++
          earlier))))) :
    (passDiscipline deployment).Follows (fun now outcome =>
      ∀ result, outcome = .ok result → Concluded pass.job result now ∧
        lastRead pass.job.id now = some pass.job)
      (DeliveryService.deliver deployment pass.job pass.webhook.url
        pass.secret) log := by
  refine follows_call (fun _ _ _ same => by cases same) trivial
    fun attempt _ => ?_
  refine follows_call (fun _ _ _ same => by cases same) trivial
    fun startedAt _ => ?_
  refine follows_call (fun _ _ _ same => by cases same) trivial
    fun timestamp _ => ?_
  let whole : Pass := { pass with
    attempt := attempt, startedAt := startedAt, timestamp := timestamp }
  have passed : Passed deployment (whole.request deployment)
      (⟨.now, .ok timestamp⟩ :: ⟨.now, .ok startedAt⟩ ::
        ⟨.nextAttemptNumber pass.job.id, .ok attempt⟩ :: log) := by
    refine ⟨whole, { cleared with }, rfl, earlier, ?_⟩
    rw [told]
    simp [Pass.calls, Pass.preparing, Pass.taking, Pass.checking, whole]
  refine follows_bind (fun _ _ _ same => by cases same) (send_follows passed) ?_
  rintro ⟨statusCode, responseBody, error⟩ now ⟨calls, heard, rfl⟩
  refine follows_call (fun _ _ _ same => by cases same) trivial
    fun endedAt _ => ?_
  refine follows_call (fun _ _ _ same => by cases same) ?_ fun _ _ => ?_
  · exact ⟨_, calls, startedAt, endedAt, log, rfl, rfl, heard, rfl, rfl⟩
  · refine follows_pure fun _ same => ?_
    cases same
    have first : Unread log (⟨.now, .ok timestamp⟩ ::
        ⟨.now, .ok startedAt⟩ ::
          ⟨.nextAttemptNumber pass.job.id, .ok attempt⟩ :: log) :=
      (((Unread.refl log).cons rfl).cons rfl).cons rfl
    have last := (first.trans (heard.unread _)).cons
      (show (⟨.now, .ok endedAt⟩ : Entry).request.reads = false from rfl)
    have kept := (last.lastRead pass.job.id).trans read
    exact ⟨⟨_, ⟨rfl, _, List.suffix_refl _, kept⟩, rfl, rfl, rfl⟩, kept⟩

theorem deliverJob_follows (pass : Pass) (own : pass.job.id = pass.jobId)
    (unfinished : pass.job.state ≠ .succeeded ∧ pass.job.state ≠ .dead)
    (closed : pass.circuit ≠ .opened) (granted : pass.rate.allowed = true)
    (earlier : List Entry)
    (told : log = pass.taking deployment ++ (pass.checking deployment ++
      (⟨.findJob pass.jobId, .ok (some pass.job)⟩ ::
        (Pass.reserving pass.jobId pass.leasedAt ++ earlier)))) :
    (passDiscipline deployment).Follows Ends
      (JobService.deliverJob deployment pass.jobId pass.job) log := by
  have read : lastRead pass.job.id log = some pass.job := by
    rw [told, own]
    simp [Pass.taking, Pass.checking, lastRead]
  refine follows_call (fun _ _ => trivial)
    (guarded_of_free _ _ rfl) fun updated _ => ?_
  refine follows_bind (fun _ _ => trivial) getById_follows ?_
  rintro webhook _ rfl
  refine follows_bind (fun _ _ => trivial) getSecret_follows ?_
  rintro secret _ ⟨signed, rfl⟩
  let whole : Pass := { pass with
    updated := updated, webhook := webhook, secret := secret }
  refine follows_bind (fun _ _ => trivial) (deliver_follows whole
    ⟨own, unfinished, closed, granted, signed⟩ earlier read ?_) ?_
  · rw [told]
    rfl
  · rintro result now ⟨concluded, readNow⟩
    exact settle_follows own concluded readNow

theorem process_follows {jobId : JobId} {leasedAt : Int}
    {earlier : List Entry}
    (told : log = Pass.reserving jobId leasedAt ++ earlier) :
    (passDiscipline deployment).Follows Ends
      (JobService.process deployment jobId) log := by
  refine follows_call (fun _ _ => trivial) trivial fun found answers => ?_
  cases found with
  | none =>
      exact follows_last (fun _ _ => trivial) (.inl ⟨log, rfl⟩) fun _ => trivial
  | some job =>
      have own : job.id = jobId := answers
      dsimp only
      split
      next finished =>
        exact follows_last (fun _ _ => trivial)
          (.inr (.inl ⟨job, log, rfl, finished⟩)) fun _ => trivial
      next unfinished =>
        refine follows_bind (fun _ _ => trivial) check_follows ?_
        rintro circuit _ ⟨checkedAt, rfl⟩
        split
        · exact ends_of_free (.bind (.perform rfl) fun _ =>
            deferUntil_free _ _ _)
        next closed =>
          refine follows_bind (fun _ _ => trivial) take_follows ?_
          rintro rate _ ⟨takenAt, rfl⟩
          split
          · exact ends_of_free (.bind (.perform rfl) fun _ =>
              deferUntil_free _ _ _)
          next granted =>
            let pass : Pass :=
              { jobId := jobId, leasedAt := leasedAt, job := job
                checkedAt := checkedAt, circuit := circuit
                takenAt := takenAt, rate := rate, updated := none
                webhook := ⟨0, "", "", false⟩, secret := "", attempt := 0
                startedAt := 0, timestamp := 0 }
            refine deliverJob_follows pass own (not_or.mp unfinished) closed
              (by simpa using granted) earlier ?_
            rw [told]
            rfl

theorem consume_follows :
    (passDiscipline deployment).Follows Ends (Worker.consume deployment)
      log := by
  refine Follows.bind (Follows.attempt (reserve_follows.mono ?_))
  rintro now (failure | _ | jobId) tells
  · exact follows_pure trivial
  · exact follows_pure trivial
  · obtain ⟨leasedAt, told⟩ := tells jobId rfl
    refine Follows.tryCatch ((process_follows told).mono ?_)
    rintro later (failure | done) _
    · exact follows_pure trivial
    · trivial

/-! ## Requests and replays -/

theorem createJob_follows {input : EnqueueInput}
    (admitted : Admitted input.toJobInput log) :
    (passDiscipline deployment).Follows Ends (JobService.createJob input)
      log := by
  refine follows_call (fun _ _ => trivial) admitted fun job _ => ?_
  refine ends_of_free (.bind (.perform rfl) fun now => .bind ?_ fun _ =>
    .bind ((resolveSlot_within _ _).mono fun _ => free_of_slots)
      fun _ => trivial)
  unfold JobService.place
  split <;> exact .perform rfl

theorem createOrAbort_follows {input : EnqueueInput}
    (admitted : Admitted input.toJobInput log) :
    (passDiscipline deployment).Follows Ends
      (JobService.createOrAbort input) log := by
  refine Follows.tryCatch ((createJob_follows admitted).mono ?_)
  rintro now (failure | job) _
  · exact ends_of_free (.bind ((releaseSlot_within _).mono
      fun _ => free_of_slots) fun _ => trivial)
  · trivial

theorem getOwnedBy_follows {webhookId : WebhookId} {tenant : String} :
    (passDiscipline deployment).Follows (fun now outcome =>
      ∀ webhook, outcome = .ok webhook → webhook.tenant = tenant ∧
        now = ⟨.findWebhook webhookId, .ok (some webhook)⟩ :: log)
      (WebhookService.getOwnedBy webhookId tenant) log := by
  refine follows_call (fun _ _ _ same => by cases same) trivial fun found _ => ?_
  cases found with
  | none => exact follows_throw fun _ same => by cases same
  | some webhook =>
      dsimp only
      split
      · exact follows_throw fun _ same => by cases same
      next owned =>
        refine follows_pure fun _ same => ?_
        cases same
        exact ⟨not_not.mp owned, rfl⟩

theorem begin_follows {tenant key : String} {input : JobInput}
    (admitted : Admitted input log) :
    (passDiscipline deployment).Follows (fun now outcome =>
      ∀ result, outcome = .ok result → Admitted input now)
      (Idempotency.begin tenant key) log := by
  refine follows_call (fun _ _ _ same => by cases same) trivial
    fun reserved _ => ?_
  split
  · exact follows_pure fun _ _ => admitted.cons _
  · refine follows_call (fun _ _ _ same => by cases same) trivial
      fun value _ => ?_
    rcases value with _ | _ | _ <;>
      exact follows_pure fun _ _ => (admitted.cons _).cons _

theorem enqueue_follows {input : EnqueueInput} :
    (passDiscipline deployment).Follows Ends (JobService.enqueue input)
      log := by
  refine follows_bind (fun _ _ => trivial) getOwnedBy_follows ?_
  rintro webhook _ ⟨owned, rfl⟩
  split
  · exact follows_throw trivial
  next active =>
    have admitted : Admitted input.toJobInput
        (⟨.findWebhook input.webhookId, .ok (some webhook)⟩ :: log) :=
      ⟨webhook, List.mem_cons_self, owned, by simpa using active⟩
    split
    · exact createOrAbort_follows admitted
    · refine follows_bind (fun _ _ => trivial) (begin_follows admitted) ?_
      intro result now admitted
      cases result with
      | new => exact createOrAbort_follows admitted
      | pending => exact follows_throw trivial
      | duplicate jobId =>
          refine follows_call (fun _ _ => trivial) trivial fun found _ => ?_
          cases found with
          | some job => exact follows_pure trivial
          | none => exact createOrAbort_follows (admitted.cons _)

theorem main_follows (deployment : Deployment) (role : Role) :
    (passDiscipline deployment).Follows Ends (role.main deployment) log := by
  have mapped : ∀ {Value : Type} {program : Async Value}
      {result : Value → Result},
      (passDiscipline deployment).Follows Ends program log →
        (passDiscipline deployment).Follows Ends (result <$> program) log := by
    intro Value program result follows
    refine Follows.bind (follows.mono ?_)
    rintro now (failure | value) _
    · trivial
    · exact follows_pure trivial
  cases role with
  | enqueue input => exact mapped enqueue_follows
  | worker => exact mapped consume_follows
  | replay limit =>
      exact mapped (ends_of_free ((replayLoop_within limit []).mono
        fun _ => free_of_replays))

end Passes

/-! ## All processes -/

variable {deployment : Deployment} {before after : State} {action : Action}

theorem log_of_performer {pid : Pid}
    (taken : step deployment before action = some after)
    (performs : action.performer? = some pid) :
    ∃ choice call, before.pending? pid = some call ∧
      after.store = (exec deployment choice call before.store).2 ∧
      after.log pid = ⟨call, (exec deployment choice call before.store).1⟩ ::
        before.log pid := by
  obtain ⟨choice, call, pending, store, own⟩ := own_of_performer taken performs
  refine ⟨choice, call, pending, store, ?_⟩
  rw [State.log, own]
  rfl

theorem log_of_other {pid : Pid}
    (taken : step deployment before action = some after)
    (other : action.performer? ≠ some pid) : after.log pid = before.log pid :=
  congrArg (List.map Event.entry) (own_of_other taken other)

/-- Every process makes its calls as its program has them guarded, and has
done so. -/
structure PassInvariant (deployment : Deployment) (state : State) : Prop where
  disciplined : state.Disciplined (passDiscipline deployment)
    (fun pid _ state => state.log pid) Passes.Ends
  kept : ∀ pid, Kept (Guarded deployment) (state.log pid)

theorem passDiscipline_respects
    (taken : step deployment before action = some after) :
    Respects deployment (passDiscipline deployment)
      (fun pid _ state => state.log pid) before action after where
  performed {pid choice process call next rescue resumed} _ _ _ same := by
    subst same
    have own : (before.perform deployment pid choice call resumed).own pid =
        ⟨pid, call, (exec deployment choice call before.store).1⟩ ::
          before.own pid := (own_cons rfl).trans (if_pos rfl)
    exact ⟨congrArg (List.map Event.entry) own, exec_answers _ _ _ _⟩
  unanswered pending same := by
    subst same
    exact ⟨onStore_of_failLate taken pending, rfl⟩
  failed {pid call failure} pending same := by
    subst same
    refine ⟨onStore_of_fail taken pending, log_of_other taken ?_⟩
    simp [Action.performer?]
  others other := log_of_other taken fun performs =>
    other (Action.actor?_of_performer? performs)

namespace PassInvariant

theorem initial : PassInvariant deployment State.initial where
  disciplined _ _ _ found := by cases found
  kept _ := .nil

theorem step (invariant : PassInvariant deployment before)
    (taken : WebhookDelivery.step deployment before action = some after) :
    PassInvariant deployment after where
  disciplined := invariant.disciplined.step taken
    (fun _ process _ _ => Passes.main_follows deployment process.role)
    (passDiscipline_respects taken)
  kept pid := by
    by_cases performs : action.performer? = some pid
    · obtain ⟨choice, call, pending, _, log⟩ :=
        log_of_performer taken performs
      rw [log]
      exact (invariant.kept pid).cons (invariant.disciplined.allowed pending)
    · rw [log_of_other taken performs]
      exact invariant.kept pid

theorem of_run {actions : List Action}
    (runs : run (WebhookDelivery.step deployment) State.initial actions =
      some after) : PassInvariant deployment after :=
  invariant_of_run runs initial fun _ _ _ invariant taken =>
    invariant.step taken

end PassInvariant

end WebhookDelivery
