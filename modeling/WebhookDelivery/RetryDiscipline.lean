import WebhookDelivery.RetryPolicy
import WebhookDelivery.QueueDiscipline

/-!
# Working as the retry policy says

A process that holds a job writes its row, its records and its place in an
order of its own, and what it knows of the job in between follows the course of
the policy.  This file states at which calls the stores have caught up with the
course; it is about runs in which the stores answer and no worker is overruled.
-/

namespace WebhookDelivery

open Concurrency Program Discipline

/-- The row and the number of records of a job are those of its course, which
has led to the given position. -/
structure Tallies (budget : Nat) (position : Position) (row : JobRow)
    (records : Nat) (course : Course) : Prop where
  state : row.state = course.state
  attempts : row.attempts = course.attempts
  records : records = course.records
  position : course.position = position
  limit : row.maxAttempts = budget
  sound : course.Sound budget

/-- A claim, the row and the number of records of the job it is about, and the
course of that job. -/
structure CourseView where
  claim : Claim
  row : Option JobRow
  records : Nat
  course : Course

/-- The call asks the endpoint, and may be answered with an error. -/
def Call.asksEndpoint : Call → Bool
  | .fetch _ | .responseText => true
  | _ => false

/-- The call neither writes nor reads what the course of a job is about. -/
def Call.indifferent : Call → Bool
  | .now | .random | .recordSuccess _ | .recordFailure _ _ _
  | .nextAttemptNumber _ => true
  | _ => false

namespace CourseView

variable (budget : Nat)

/-- The job has a property, unless its row has been deleted. -/
def All (view : CourseView) (property : JobRow → Nat → Course → Prop) : Prop :=
  ∀ row, view.row = some row → property row view.records view.course

/-- Nobody else acts on the job of a claim; its row may be deleted. -/
def Rely (before after : CourseView) : Prop :=
  after.claim = before.claim ∧ ∀ row, after.row = some row →
    before.row = some row ∧ after.records = before.records ∧
      after.course = before.course

/-- Where the stores must have caught up with the course, and which job is
delivered. -/
def Permits (view : CourseView) : Call → Prop
  | .ack _ => view.All (Tallies budget .gone)
  | .retryLater _ _ => view.All (Tallies budget .delayed)
  | .deadLetter _ => view.All (Tallies budget .deadLettered)
  | .push _ => view.All fun row records course =>
      Tallies budget .ready row records (course.next budget .ready)
  | .pushDelayed _ _ => view.All fun row records course =>
      Tallies budget .delayed row records (course.next budget .delayed)
  | .fetch request => view.claim = .reserved request.jobId ∧
      view.All fun _ _ course => course.attempts < budget
  | .insertAttempt record => view.claim = .reserved record.jobId
  | _ => True

/-- What a call that took effect means for the job of the claim. -/
def Writes (view after : CourseView) :
    (call : Call) → Except AppError call.Reply → Prop
  | .brpoplpush, .ok (some _) => after.All (Tallies budget .ready)
  | .popDlq, .ok (some _) => after.All (Tallies budget .deadLettered)
  | .insertJob _, .ok _ => after.All fun row records course =>
      row.state = .queued ∧ row.attempts = 0 ∧ row.maxAttempts = budget ∧
        records = 0 ∧ course = .fresh
  | .zaddLease jobId _, .ok _ => view.claim = .popped jobId →
      after = { view with claim := .reserved jobId }
  | .findJob jobId, .ok found => view.claim = .reserved jobId →
      after = view ∧ found = view.row.map JobRow.toJob
  | .updateState update, .ok _ => view.claim = .reserved update.id →
      ∃ now, after =
        { view with row := view.row.map (update.apply now) }
  | .resetForReplay jobId, .ok (some _) => view.claim = .replaying jobId →
      ∃ now, after =
        { view with
          row := view.row.map (JobRow.reset now)
          course := view.course.next budget .reset }
  | .resetForReplay jobId, .ok none => view.claim = .replaying jobId →
      view.row = none
  | .insertAttempt record, .ok _ => view.claim = .reserved record.jobId →
      after = { view with records := view.records + 1 }
  | .fetch request, outcome => view.claim = .reserved request.jobId →
      after = { view with
        course := view.course.next budget (.delivered outcome.toOption) }
  | .responseText, _ => after = view
  | .checkCircuit _ _ _, .ok reply =>
      ∀ jobId, view.claim = .reserved jobId → after =
        if reply = .opened then
          { view with course := view.course.next budget .deferred }
        else view
  | .take _ _ _ _ _, .ok reply =>
      ∀ jobId, view.claim = .reserved jobId → after =
        if reply.allowed then view
        else { view with course := view.course.next budget .deferred }
  | .findWebhook id, .ok found => after = view ∧
      (found = none → view.All fun row _ _ => row.webhookId ≠ id)
  | .findSecret id, .ok found => after = view ∧
      (found = none ∨ found = some "" →
        view.All fun row _ _ => row.webhookId ≠ id)
  | other, _ => other.indifferent → after = view

end CourseView

/-- A process sees its claim, and how far the claimed job has come.  Every
store answers. -/
abbrev courseDiscipline (budget : Nat) :
    Discipline Call Call.Reply AppError where
  View := CourseView
  Rely := CourseView.Rely
  rely_refl _ := ⟨rfl, fun _ found => ⟨found, rfl, rfl⟩⟩
  rely_trans := by
    intro first second third earlier later
    refine ⟨later.1.trans earlier.1, fun row found => ?_⟩
    obtain ⟨foundThen, records, course⟩ := later.2 row found
    obtain ⟨foundFirst, recordsThen, courseThen⟩ := earlier.2 row foundThen
    exact ⟨foundFirst, records.trans recordsThen, course.trans courseThen⟩
  Allowed := CourseView.Permits budget
  Fallible _ _ := False
  Effect view call outcome after :=
    after.claim = view.claim.after call outcome ∧ call.Answers outcome ∧
      (call.asksEndpoint = false → ∃ reply, outcome = .ok reply) ∧
      (after.claim = .none → after.row = none) ∧
      view.Writes budget after call outcome
  lost view := view

namespace CourseDiscipline

variable {budget : Nat} {claim : Claim} {view : CourseView}
  {property : JobRow → Nat → Course → Prop} {Value Next : Type}

/-- A process with this claim, on a job that has a property. -/
structure Holds (claim : Claim) (property : JobRow → Nat → Course → Prop)
    (view : CourseView) : Prop where
  claim : view.claim = claim
  all : view.All property

theorem Holds.rely {now : CourseView} (holds : Holds claim property view)
    (rely : view.Rely now) : Holds claim property now where
  claim := rely.1.trans holds.claim
  all row found := by
    obtain ⟨foundThen, records, course⟩ := rely.2 row found
    rw [records, course]
    exact holds.all row foundThen

theorem Holds.mono {wider : JobRow → Nat → Course → Prop}
    (holds : Holds claim property view)
    (widen : ∀ row records course, property row records course →
      wider row records course) : Holds claim wider view where
  claim := holds.claim
  all row found := widen _ _ _ (holds.all row found)

/-- The process has let go of its job, or the job is no more. -/
abbrev LetGo (view : CourseView) (_ : Except AppError Value) : Prop :=
  view.row = none

theorem row_of_rely {now : CourseView} (rely : view.Rely now)
    (absent : view.row = none) : now.row = none := by
  cases found : now.row with
  | none => rfl
  | some row =>
      have foundThen := (rely.2 row found).1
      rw [absent] at foundThen
      cases foundThen

theorem letGo_throw {failure : AppError} (absent : view.row = none) :
    (courseDiscipline budget).Follows LetGo (.throw failure : Async Value)
      view :=
  fun _ rely => row_of_rely rely absent

theorem letGo_pure {value : Value} (absent : view.row = none) :
    (courseDiscipline budget).Follows LetGo (.pure value : Async Value) view :=
  fun _ rely => row_of_rely rely absent

/-- One call to a store, the clock or the dice, which answers. -/
theorem follows_await {post : CourseView → Except AppError Next → Prop}
    {call : Call} {rest : call.Reply → Async Next}
    (answers : call.asksEndpoint = false)
    (permits : ∀ now, view.Rely now → now.Permits budget call)
    (replied : ∀ now after reply, view.Rely now →
      (courseDiscipline budget).Effect now call (.ok reply) after →
        (courseDiscipline budget).Follows post (rest reply) after) :
    (courseDiscipline budget).Follows post ((await call).bind rest) view := by
  intro now rely
  refine ⟨permits now rely, fun never => never.elim, ?_⟩
  intro outcome after effect
  obtain ⟨reply, rfl⟩ := effect.2.2.1 answers
  refine ⟨fun never => never.elim, fun failure never => ?_, ?_⟩
  · cases never
  · intro same equal
    cases equal
    exact replied now after reply rely effect

/-- The last call of a program. -/
theorem follows_last {post : CourseView → Except AppError Value → Prop}
    {call : Call} {result : call.Reply → Value}
    (answers : call.asksEndpoint = false)
    (permits : ∀ now, view.Rely now → now.Permits budget call)
    (ends : ∀ now after reply later, view.Rely now →
      (courseDiscipline budget).Effect now call (.ok reply) after →
        after.Rely later → post later (.ok (result reply))) :
    (courseDiscipline budget).Follows post
      ((await call).bind fun reply => .pure (result reply)) view :=
  follows_await answers permits fun now after reply rely effect later relyOn =>
    ends now after reply later rely effect relyOn

/-- A call that leaves the job alone keeps what is known of it. -/
theorem follows_indifferent {post : CourseView → Except AppError Next → Prop}
    {call : Call} {rest : call.Reply → Async Next}
    (indifferent : call.indifferent) (holds : Holds claim property view)
    (continues : ∀ reply now, Holds claim property now →
      (courseDiscipline budget).Follows post (rest reply) now) :
    (courseDiscipline budget).Follows post ((await call).bind rest) view := by
  have answers : call.asksEndpoint = false := by
    cases call <;> first | rfl | cases indifferent
  refine follows_await answers ?_ ?_
  · intro now rely
    cases call <;> trivial
  · intro now after reply rely effect
    have same : after = now := by
      have writes := effect.2.2.2.2
      cases call <;> first | exact writes rfl | cases indifferent
    rw [same]
    exact continues reply now (holds.rely rely)

/-- A process that holds no job. -/
structure Idle (view : CourseView) : Prop where
  claim : view.claim = .none
  row : view.row = none

theorem Idle.rely {now : CourseView} (idle : Idle view)
    (rely : view.Rely now) : Idle now :=
  ⟨rely.1.trans idle.claim, row_of_rely rely idle.row⟩

/-- A call that ends the claim of the process, which then holds no job. -/
theorem follows_release {call : Call} (answers : call.asksEndpoint = false)
    (holds : Holds claim property view)
    (permits : ∀ now, Holds claim property now → now.Permits budget call)
    (releases : ∀ reply, claim.after call (.ok reply) = .none) :
    (courseDiscipline budget).Follows (fun now _ => Idle now) (await call)
      view := by
  intro now rely
  have holdsNow := holds.rely rely
  refine ⟨permits now holdsNow, fun never => never.elim, ?_⟩
  intro outcome after effect
  obtain ⟨reply, rfl⟩ := effect.2.2.1 answers
  refine ⟨fun never => never.elim, fun failure never => ?_, ?_⟩
  · cases never
  · intro same equal later rely
    cases equal
    have ended : after.claim = .none := by
      rw [effect.1, holdsNow.claim]
      exact releases reply
    exact Idle.rely ⟨ended, effect.2.2.2.1 ended⟩ rely

/-- A call to the endpoint whose failure is caught. -/
theorem follows_attempt {post : CourseView → Except AppError Next → Prop}
    {call : Call} {rest : Except AppError call.Reply → Async Next}
    (permits : ∀ now, view.Rely now → now.Permits budget call)
    (answered : ∀ now after outcome, view.Rely now →
      (courseDiscipline budget).Effect now call outcome after →
        (courseDiscipline budget).Follows post (rest outcome) after) :
    (courseDiscipline budget).Follows post
      ((Program.attempt (await call)).bind rest) view := by
  intro now rely
  refine ⟨permits now rely, fun never => never.elim, ?_⟩
  intro outcome after effect
  have goesOn := answered now after outcome rely effect
  refine ⟨fun never => never.elim, ?_, ?_⟩
  · rintro failure rfl
    exact goesOn
  · rintro reply rfl
    exact goesOn

/-! ## Deliveries -/

/-- The row of a job that is being delivered, against the job as it was
read. -/
structure Engaged (budget : Nat) (job : Job) (row : JobRow) : Prop where
  webhook : row.webhookId = job.webhookId
  attempts : row.attempts = job.attempts
  limit : row.maxAttempts = budget
  known : job.maxAttempts = budget
  left : job.attempts < budget

/-- Nothing has been sent yet. -/
def Preparing (budget : Nat) (job : Job) (row : JobRow) (records : Nat)
    (course : Course) : Prop :=
  Engaged budget job row ∧ course.attempts = job.attempts ∧
    records = course.records

/-- A delivery has ended with a status, and the stores have caught up with it
by so many records. -/
def Sent (budget : Nat) (job : Job) (status : Option Nat) (recorded : Nat)
    (row : JobRow) (records : Nat) (course : Course) : Prop :=
  Engaged budget job row ∧ ∃ old : Course, old.attempts = job.attempts ∧
    records = old.records + recorded ∧
      course = old.next budget (.delivered status)

variable {deployment : Deployment} {job : Job} {jobId : JobId}

theorem send_follows {request : DeliveryRequest}
    (holds : Holds (.reserved request.jobId) (Preparing budget job) view) :
    (courseDiscipline budget).Follows
      (fun now outcome => ∃ status body error,
        outcome = .ok (status, body, error) ∧
          Holds (.reserved request.jobId) (Sent budget job status 0) now)
      (DeliveryService.send request) view := by
  refine follows_attempt (fun now rely => ?_) ?_
  · have holdsNow := holds.rely rely
    refine ⟨holdsNow.claim, fun row found => ?_⟩
    have prepared := holdsNow.all row found
    show now.course.attempts < budget
    rw [prepared.2.1]
    exact prepared.1.left
  intro now after outcome rely effect
  have holdsNow := holds.rely rely
  have sent : Holds (.reserved request.jobId)
      (Sent budget job outcome.toOption 0) after := by
    rw [effect.2.2.2.2 holdsNow.claim]
    refine ⟨holdsNow.claim, fun row found => ?_⟩
    have prepared := holdsNow.all row found
    exact ⟨prepared.1, now.course, prepared.2.1, prepared.2.2, rfl⟩
  cases outcome with
  | error failure =>
      intro later relyOn
      exact ⟨none, none, some failure.message, rfl, sent.rely relyOn⟩
  | ok status =>
      refine follows_attempt (fun _ _ => trivial) ?_
      intro now' after' text rely' effect'
      have still := sent.rely rely'
      rw [← show after' = now' from effect'.2.2.2.2] at still
      cases text with
      | error failure =>
          intro later relyOn
          exact ⟨some status, none, some failure.message, rfl,
            still.rely relyOn⟩
      | ok text =>
          intro later relyOn
          exact ⟨some status, _, _, rfl, still.rely relyOn⟩

/-- `isRetryable` is about the responses that do not rule out another
attempt. -/
theorem isRetryable_eq (status : Option Nat) :
    Backoff.isRetryable status = !rejects status := by
  cases status with
  | none => rfl
  | some code =>
      simp only [Backoff.isRetryable, rejects, Option.any_some]
      by_cases server : code < 500
      · simp [server, Nat.not_le.mpr server]
      · simp [server, Nat.not_lt.mp server]

/-- What a delivery reports of its status. -/
structure Reports (status : Option Nat)
    (result : DeliveryService.DeliveryResult) : Prop where
  success : result.success = accepts status
  retryable : result.success = false → result.retryable = !rejects status

theorem deliver_follows {webhookUrl secret : String} (own : job.id = jobId)
    (holds : Holds (.reserved jobId) (Preparing budget job) view) :
    (courseDiscipline budget).Follows
      (fun now outcome => ∃ status result, outcome = .ok result ∧
        Reports status result ∧
          Holds (.reserved jobId) (Sent budget job status 1) now)
      (DeliveryService.deliver deployment job webhookUrl secret) view := by
  subst own
  refine follows_indifferent rfl holds fun attemptNumber _ holds => ?_
  refine follows_indifferent rfl holds fun startedAt _ holds => ?_
  refine follows_indifferent rfl holds fun timestamp _ holds => ?_
  refine Follows.bind ((send_follows holds).mono ?_)
  rintro _ _ ⟨status, body, error, rfl, sent⟩
  refine follows_indifferent rfl sent fun endedAt _ sent => ?_
  refine follows_await rfl (fun _ rely => (sent.rely rely).claim) ?_
  intro now after _ rely effect later relyOn
  have sentNow := sent.rely rely
  have recorded : Holds (.reserved job.id) (Sent budget job status 1)
      after := by
    rw [effect.2.2.2.2 sentNow.claim]
    refine ⟨sentNow.claim, fun row found => ?_⟩
    obtain ⟨engaged, old, attempts, records, course⟩ := sentNow.all row found
    exact ⟨engaged, old, attempts, congrArg (· + 1) records, course⟩
  refine ⟨status, _, rfl, ⟨rfl, fun failed => ?_⟩, recorded.rely relyOn⟩
  have failed : status.any DeliveryService.isOk = false := failed
  simp only [failed, isRetryable_eq, Bool.not_false, Bool.true_and]

/-! ## The worker -/

/-- An update of the row of the claimed job. -/
theorem update_follows {post : CourseView → Except AppError Next → Prop}
    {update : StateUpdate} {rest : Option Job → Async Next}
    (written : JobRow → Nat → Course → Prop) (own : update.id = jobId)
    (holds : Holds (.reserved jobId) property view)
    (writes : ∀ row records course now, property row records course →
      written (update.apply now row) records course)
    (continues : ∀ found now, Holds (.reserved jobId) written now →
      (courseDiscipline budget).Follows post (rest found) now) :
    (courseDiscipline budget).Follows post
      ((JobRepository.updateState update).bind rest) view := by
  subst own
  refine follows_await rfl (fun _ _ => trivial) ?_
  intro now after found rely effect
  have holdsNow := holds.rely rely
  apply continues found after
  obtain ⟨time, same⟩ := effect.2.2.2.2 holdsNow.claim
  rw [same]
  refine ⟨holdsNow.claim, fun row is => ?_⟩
  obtain ⟨old, was, rfl⟩ := Option.map_eq_some_iff.mp is
  exact writes old _ _ time (holdsNow.all old was)

theorem ack_follows
    (holds : Holds (.reserved jobId) (Tallies budget .gone) view) :
    (courseDiscipline budget).Follows LetGo (Queue.ack jobId) view :=
  Follows.mono (follows_release rfl holds (fun _ holds => holds.all)
    fun _ => rfl) fun _ _ idle => idle.row

theorem retryLater_follows {runAtMs : Int}
    (holds : Holds (.reserved jobId) (Tallies budget .delayed) view) :
    (courseDiscipline budget).Follows LetGo (Queue.retryLater jobId runAtMs)
      view :=
  Follows.mono (follows_release rfl holds (fun _ holds => holds.all)
    fun _ => rfl) fun _ _ idle => idle.row

theorem deadLetter_follows
    (holds : Holds (.reserved jobId) (Tallies budget .deadLettered) view) :
    (courseDiscipline budget).Follows LetGo (Queue.deadLetter jobId) view :=
  Follows.mono (follows_release rfl holds (fun _ holds => holds.all)
    fun _ => rfl) fun _ _ idle => idle.row

/-- A job that has been put off stays as it is but for its `runAt`. -/
theorem deferUntil_follows {runAtMs : Int} (own : job.id = jobId)
    (holds : Holds (.reserved jobId) (Tallies budget .delayed) view) :
    (courseDiscipline budget).Follows LetGo
      (JobService.deferUntil jobId job runAtMs) view := by
  refine update_follows (Tallies budget .delayed) own holds ?_
    fun _ _ holds => retryLater_follows holds
  intro row records course now tallies
  have sound := tallies.sound
  rw [Course.Sound, tallies.position] at sound
  exact { tallies with state := sound.2.1.symm }

/-- A delivered job, once the update that follows its delivery has written the
state of its course. -/
theorem tallies_of_sent {status : Option Nat} {row : JobRow} {records : Nat}
    {course : Course} {update : StateUpdate} {position : Position} {now : Int}
    (sent : Sent budget job status 1 row records course)
    (spends : update.incrementAttempts = true)
    (state : ∀ old : Course, old.attempts = job.attempts →
      (old.next budget (.delivered status)).state = update.state ∧
        (old.next budget (.delivered status)).position = position) :
    Tallies budget position (update.apply now row) records course := by
  obtain ⟨engaged, old, attempts, recorded, rfl⟩ := sent
  have left : old.attempts < budget := by
    rw [attempts]
    exact engaged.left
  refine ⟨(state old attempts).1.symm, ?_, ?_, (state old attempts).2,
    engaged.limit, Course.sound_delivered left status⟩
  · rw [Course.delivered_attempts, attempts, ← engaged.attempts]
    simp only [StateUpdate.apply, spends, if_true]
  · rw [Course.delivered_records, recorded]

theorem settle_follows {status : Option Nat}
    {result : DeliveryService.DeliveryResult} (own : job.id = jobId)
    (reports : Reports status result)
    (holds : Holds (.reserved jobId) (Sent budget job status 1) view) :
    (courseDiscipline budget).Follows LetGo
      (JobService.settle deployment jobId job result) view := by
  unfold JobService.settle
  split
  next success =>
    have accepted : accepts status := reports.success.symm.trans success
    refine follows_indifferent rfl holds fun _ _ holds => ?_
    refine update_follows (Tallies budget .gone) own holds ?_
      fun _ _ holds => ack_follows holds
    intro row records course now sent
    refine tallies_of_sent sent rfl fun old _ => ?_
    simp [Course.next, accepted]
  next failed =>
    rw [Bool.not_eq_true] at failed
    have refused : accepts status = false := reports.success.symm.trans failed
    have retryable := reports.retryable failed
    refine follows_indifferent rfl holds fun _ _ holds => ?_
    refine follows_indifferent rfl holds fun _ _ holds => ?_
    dsimp only
    split
    next exhausted =>
      refine update_follows (Tallies budget .deadLettered) own holds ?_
        fun _ _ holds => deadLetter_follows holds
      intro row records course now sent
      refine tallies_of_sent sent rfl fun old attempts => ?_
      rw [retryable, sent.1.known, Bool.not_not] at exhausted
      have final : rejects status ∨ budget ≤ old.attempts + 1 := by
        simpa [attempts] using exhausted
      simp [Course.next, refused, final]
    next attemptsLeft =>
      refine follows_indifferent rfl holds fun dice _ holds => ?_
      refine follows_indifferent rfl holds fun now _ holds => ?_
      refine update_follows (Tallies budget .delayed) own holds ?_
        fun _ _ holds => retryLater_follows holds
      intro row records course now sent
      refine tallies_of_sent sent rfl fun old attempts => ?_
      rw [retryable, sent.1.known, Bool.not_not] at attemptsLeft
      have again : ¬(rejects status ∨ budget ≤ old.attempts + 1) := by
        simpa [attempts] using attemptsLeft
      simp [Course.next, refused, again]

/-- A lookup that finds its webhook goes on; another one ends the delivery, and
its job is no more. -/
theorem getById_follows {rest : Webhook → Async Unit}
    (holds : Holds claim property view)
    (registered : ∀ row records course, property row records course →
      row.webhookId = job.webhookId)
    (continues : ∀ webhook now, Holds claim property now →
      (courseDiscipline budget).Follows LetGo (rest webhook) now) :
    (courseDiscipline budget).Follows LetGo
      ((WebhookService.getById job.webhookId).bind rest) view := by
  refine follows_await rfl (fun _ _ => trivial) ?_
  intro now after found rely effect
  obtain ⟨same, missing⟩ := effect.2.2.2.2
  have holdsNow := holds.rely rely
  rw [same]
  cases found with
  | none =>
      refine letGo_throw (Option.eq_none_iff_forall_not_mem.mpr ?_)
      intro row is
      exact missing rfl row is (registered _ _ _ (holdsNow.all row is))
  | some webhook => exact continues webhook now holdsNow

theorem getSecret_follows {rest : String → Async Unit}
    (holds : Holds claim property view)
    (registered : ∀ row records course, property row records course →
      row.webhookId = job.webhookId)
    (continues : ∀ secret now, Holds claim property now →
      (courseDiscipline budget).Follows LetGo (rest secret) now) :
    (courseDiscipline budget).Follows LetGo
      ((WebhookService.getSecret job.webhookId).bind rest) view := by
  refine follows_await rfl (fun _ _ => trivial) ?_
  intro now after found rely effect
  obtain ⟨same, missing⟩ := effect.2.2.2.2
  have holdsNow := holds.rely rely
  have gone : found = none ∨ found = some "" → now.row = none := by
    intro useless
    refine Option.eq_none_iff_forall_not_mem.mpr fun row is => ?_
    exact missing useless row is (registered _ _ _ (holdsNow.all row is))
  rw [same]
  cases found with
  | none => exact letGo_throw (gone (.inl rfl))
  | some secret =>
      show (courseDiscipline budget).Follows LetGo
        (Program.bind (ite (secret = "") (.throw _) (.pure secret)) rest) now
      split
      next empty =>
        subst empty
        exact letGo_throw (gone (.inr rfl))
      · exact continues secret now holdsNow

/-- A waiting job whose row the worker has read. -/
def Waiting (budget : Nat) (job : Job) (row : JobRow) (records : Nat)
    (course : Course) : Prop :=
  row.toJob = job ∧ Tallies budget .ready row records course

theorem Waiting.queued {row : JobRow} {records : Nat} {course : Course}
    (waiting : Waiting budget job row records course) :
    job.state = .queued ∧ job.attempts < budget := by
  obtain ⟨rfl, tallies⟩ := waiting
  have sound := tallies.sound
  rw [Course.Sound, tallies.position] at sound
  refine ⟨tallies.state.trans sound.2.1, ?_⟩
  show row.attempts < budget
  rw [tallies.attempts]
  exact sound.2.2

theorem deliverJob_follows (own : job.id = jobId)
    (holds : Holds (.reserved jobId) (Waiting budget job) view) :
    (courseDiscipline budget).Follows LetGo
      (JobService.deliverJob deployment jobId job) view := by
  refine update_follows (Preparing budget job) own holds ?_ ?_
  · intro row records course now waiting
    have left := waiting.queued.2
    obtain ⟨rfl, tallies⟩ := waiting
    exact ⟨⟨rfl, rfl, tallies.limit, tallies.limit, left⟩,
      tallies.attempts.symm, tallies.records⟩
  intro _ _ holds
  refine getById_follows holds (fun _ _ _ prepared => prepared.1.webhook) ?_
  intro webhook _ holds
  refine getSecret_follows holds (fun _ _ _ prepared => prepared.1.webhook) ?_
  intro secret _ holds
  refine Follows.bind ((deliver_follows own holds).mono ?_)
  rintro _ _ ⟨status, result, rfl, reports, sent⟩
  exact settle_follows own reports sent

/-- A job that a gate does not let by. -/
theorem deferred_of_waiting {row : JobRow} {records : Nat} {course : Course}
    (waiting : Waiting budget job row records course) :
    Tallies budget .delayed row records (course.next budget .deferred) := by
  have queued := waiting.queued
  obtain ⟨rfl, tallies⟩ := waiting
  have left : course.attempts < budget := by
    rw [← tallies.attempts]
    exact queued.2
  exact ⟨queued.1, tallies.attempts, tallies.records, rfl, tallies.limit,
    Nat.le_of_lt left, rfl, left⟩

/-- Putting off a job that a gate has not let by. -/
theorem defer_follows {due : Int → Int} (own : job.id = jobId)
    (holds : Holds (.reserved jobId) (Waiting budget job) view) :
    (courseDiscipline budget).Follows LetGo
      ((await .now).bind fun now => JobService.deferUntil jobId job (due now))
      { view with course := view.course.next budget .deferred } := by
  have deferred : Holds (.reserved jobId) (Tallies budget .delayed)
      { view with course := view.course.next budget .deferred } :=
    ⟨holds.claim, fun row is => deferred_of_waiting (holds.all row is)⟩
  refine follows_indifferent rfl deferred fun now _ deferred => ?_
  exact deferUntil_follows own deferred

/-- The second gate, and what is behind it. -/
theorem take_follows {wait : RateResult → Int → Int} (own : job.id = jobId)
    (holds : Holds (.reserved jobId) (Waiting budget job) view) :
    (courseDiscipline budget).Follows LetGo
      ((RateLimit.take job.webhookId deployment.perSecond
        deployment.burst).bind fun rate =>
          if !rate.allowed then
            (await .now).bind fun now =>
              JobService.deferUntil jobId job (wait rate now)
          else JobService.deliverJob deployment jobId job) view := by
  refine follows_indifferent rfl holds fun takenAt _ holds => ?_
  refine follows_await rfl (fun _ _ => trivial) ?_
  intro now after rate rely effect
  have held := holds.rely rely
  have taken := effect.2.2.2.2 jobId held.claim
  rw [taken]
  cases allowed : rate.allowed with
  | false =>
      simp only [Bool.not_false, if_true, Bool.false_eq_true, if_false]
      exact defer_follows own held
  | true =>
      simp only [Bool.not_true, if_true, Bool.false_eq_true, if_false]
      exact deliverJob_follows own held

theorem process_follows
    (holds : Holds (.reserved jobId) (Tallies budget .ready) view) :
    (courseDiscipline budget).Follows LetGo
      (JobService.process deployment jobId) view := by
  refine follows_await rfl (fun _ _ => trivial) ?_
  intro now after found rely effect
  have holdsNow := holds.rely rely
  obtain ⟨same, read⟩ := effect.2.2.2.2 holdsNow.claim
  have answers := effect.2.1
  rw [same]
  cases found with
  | none =>
      refine ack_follows ⟨holdsNow.claim, fun row is => ?_⟩
      rw [is] at read
      cases read
  | some job =>
      have own : job.id = jobId := answers
      have waiting : Holds (.reserved jobId) (Waiting budget job) now := by
        refine ⟨holdsNow.claim, fun row is => ⟨?_, holdsNow.all row is⟩⟩
        rw [is] at read
        exact (Option.some.inj read).symm
      show (courseDiscipline budget).Follows LetGo (ite _ _ _) now
      split
      next closed =>
        -- A job that has just been claimed is queued.
        refine ack_follows (waiting.mono fun row records course waiting => ?_)
        rw [waiting.queued.1] at closed
        rcases closed with never | never <;> cases never
      next open_ =>
        refine follows_indifferent rfl waiting fun checkedAt _ waiting => ?_
        refine follows_await rfl (fun _ _ => trivial) ?_
        intro now' after' circuitState rely' effect'
        have still := waiting.rely rely'
        have checked := effect'.2.2.2.2 jobId still.claim
        rw [checked]
        show (courseDiscipline budget).Follows LetGo (ite _ _ _) _
        split
        · exact defer_follows own still
        · exact take_follows own still

theorem reserve_follows (idle : Idle view) :
    (courseDiscipline budget).Follows
      (fun now outcome => match outcome with
        | .ok (some jobId) =>
            Holds (.reserved jobId) (Tallies budget .ready) now
        | _ => now.row = none)
      Queue.reserve view := by
  refine follows_await rfl (fun _ _ => trivial) ?_
  intro now after popped rely effect
  have idleNow := idle.rely rely
  cases popped with
  | none =>
      have none : after.row = none := by
        refine effect.2.2.2.1 (effect.1.trans ?_)
        rw [idleNow.claim]
        rfl
      intro later relyOn
      exact row_of_rely relyOn none
  | some jobId =>
      have popped : Holds (.popped jobId) (Tallies budget .ready) after :=
        ⟨effect.1, effect.2.2.2.2⟩
      refine follows_indifferent rfl popped fun time _ popped => ?_
      refine follows_await rfl (fun _ _ => trivial) ?_
      intro now' after' _ rely' effect' later relyOn
      have still := popped.rely rely'
      have leased : Holds (.reserved jobId) (Tallies budget .ready) after' := by
        rw [effect'.2.2.2.2 still.claim]
        exact ⟨rfl, still.all⟩
      exact leased.rely relyOn

theorem consume_follows (idle : Idle view) :
    (courseDiscipline budget).Follows LetGo (Worker.consume deployment)
      view := by
  refine Follows.bind (Follows.attempt ((reserve_follows idle).mono ?_))
  rintro now (failure | _ | jobId) reserved
  · exact letGo_pure reserved
  · exact letGo_pure reserved
  · refine Follows.tryCatch ((process_follows reserved).mono ?_)
    rintro later (failure | value) gone
    · exact letGo_pure gone
    · exact gone

/-! ## Enqueue and replay -/

/-- Calls that a process without a job makes. -/
def unclaimed (call : Call) : Bool :=
  match call with
  | .findJob _ => true
  | call => call.gates || call.slots

/-- A process that holds no job and makes such calls goes on holding none. -/
theorem idle_follow {program : Async Value}
    (within : program.Within fun call => unclaimed call) (idle : Idle view) :
    (courseDiscipline budget).Follows (fun now _ => Idle now) program view := by
  refine Follows.of_within Idle within Idle.rely ?_ id ?_
    (fun _ _ idle => idle) idle
  · intro view call _ permitted
    cases call <;> trivial
  · intro view call outcome after idle permitted effect
    have spares : call.spares := by
      cases call <;> first | rfl | cases permitted
    have still : after.claim = .none := by
      rw [effect.1, Claim.after_of_spares _ spares, idle.claim]
    exact ⟨still, effect.2.2.2.1 still⟩

theorem idle_then {program : Async Value} {rest : Value → Async Next}
    (within : program.Within fun call => unclaimed call) (idle : Idle view)
    (second : ∀ value now, Idle now →
      (courseDiscipline budget).Follows LetGo (rest value) now) :
    (courseDiscipline budget).Follows LetGo (program.bind rest) view := by
  refine Follows.bind ((idle_follow within idle).mono ?_)
  rintro now (failure | value) idle
  · exact idle.row
  · exact second value now idle

theorem unclaimed_of_gates {call : Call} (gates : call.gates) :
    unclaimed call := by
  cases call <;> first | rfl | exact gates

theorem unclaimed_of_slots {call : Call} (slots : call.slots) :
    unclaimed call := by
  cases call <;> first | rfl | cases slots

/-- A job that has just been inserted. -/
def New (budget : Nat) (row : JobRow) (records : Nat) (course : Course) :
    Prop :=
  row.state = .queued ∧ row.attempts = 0 ∧ row.maxAttempts = budget ∧
    records = 0 ∧ course = .fresh

theorem tallies_of_new (positive : 0 < budget) {row : JobRow} {records : Nat}
    {course : Course} (new : New budget row records course) :
    Tallies budget .ready row records (course.next budget .ready) ∧
      Tallies budget .delayed row records (course.next budget .delayed) := by
  obtain ⟨state, attempts, limit, rfl, rfl⟩ := new
  exact ⟨⟨state, attempts, rfl, rfl, limit, Nat.zero_le _, rfl, positive⟩,
    ⟨state, attempts, rfl, rfl, limit, Nat.zero_le _, rfl, positive⟩⟩

theorem place_follows (positive : 0 < budget) (now : Int)
    (holds : Holds (.inserted job.id) (New budget) view) :
    (courseDiscipline budget).Follows (fun now _ => Idle now)
      (JobService.place job now) view := by
  unfold JobService.place
  split
  · exact follows_release rfl holds (fun _ holds row found =>
      (tallies_of_new positive (holds.all row found)).2) fun _ => rfl
  · exact follows_release rfl holds (fun _ holds row found =>
      (tallies_of_new positive (holds.all row found)).1) fun _ => rfl

theorem createJob_follows (positive : 0 < budget) (input : EnqueueInput) :
    (courseDiscipline budget).Follows (fun now _ => Idle now)
      (JobService.createJob input) view := by
  refine follows_await rfl (fun _ _ => trivial) ?_
  intro now after job rely effect
  have new : Holds (.inserted job.id) (New budget) after :=
    ⟨effect.1, effect.2.2.2.2⟩
  refine follows_indifferent rfl new fun time _ new => ?_
  refine Follows.bind ((place_follows positive time new).mono ?_)
  rintro later (failure | _) placed
  · exact placed
  refine Follows.bind ((idle_follow ((resolveSlot_within _ _).mono
    fun _ => unclaimed_of_slots) placed).mono ?_)
  rintro last (failure | _) idle
  · exact idle
  · exact fun _ rely => idle.rely rely

theorem createOrAbort_follows (positive : 0 < budget) (input : EnqueueInput) :
    (courseDiscipline budget).Follows LetGo (JobService.createOrAbort input)
      view := by
  refine Follows.tryCatch ((createJob_follows positive input).mono ?_)
  rintro now (failure | job) idle
  · refine idle_then ((releaseSlot_within _).mono
      fun _ => unclaimed_of_slots) idle ?_
    exact fun _ _ idle => letGo_throw idle.row
  · exact idle.row

theorem enqueue_follows (positive : 0 < budget) (input : EnqueueInput)
    (idle : Idle view) :
    (courseDiscipline budget).Follows LetGo (JobService.enqueue input)
      view := by
  refine idle_then ((getOwnedBy_within _ _).mono
    fun _ => unclaimed_of_gates) idle ?_
  intro webhook _ idle
  split
  · exact letGo_throw idle.row
  split
  · exact createOrAbort_follows positive input
  refine idle_then ((begin_within _ _).mono fun _ => unclaimed_of_slots)
    idle ?_
  rintro (_ | jobId | _) now idle
  · exact createOrAbort_follows positive input
  · apply idle_then (@Within.perform Call _ _ _ (.findJob jobId) rfl) idle
    rintro (_ | existing) now idle
    · exact createOrAbort_follows positive input
    · exact letGo_pure idle.row
  · exact letGo_throw idle.row

/-- A job that becomes ready while it is meant to be ready. -/
theorem pushed_of_ready {row : JobRow} {records : Nat} {course : Course}
    (tallies : Tallies budget .ready row records course) :
    Tallies budget .ready row records (course.next budget .ready) := by
  have same : course.next budget .ready = course := by
    cases course
    cases tallies.position
    rfl
  rw [same]
  exact tallies

/-- A dead job that a replay resets is to be delivered all over again. -/
theorem tallies_of_reset (positive : 0 < budget) {row : JobRow}
    {records : Nat} {course : Course} {now : Int}
    (dead : Tallies budget .deadLettered row records course) :
    Tallies budget .ready (row.reset now) records
      (course.next budget .reset) :=
  ⟨rfl, rfl, dead.records, rfl, dead.limit, Course.sound_reset positive⟩

theorem replayLoop_follows (positive : 0 < budget) (limit : Nat)
    (replayed : List JobId) (idle : Idle view) :
    (courseDiscipline budget).Follows LetGo
      (JobService.replayLoop limit replayed) view := by
  induction limit generalizing replayed view with
  | zero => exact letGo_pure idle.row
  | succ limit ih =>
      refine follows_await rfl (fun _ _ => trivial) ?_
      intro now after popped rely effect
      have idleNow := idle.rely rely
      cases popped with
      | none =>
          refine letGo_pure (effect.2.2.2.1 (effect.1.trans ?_))
          rw [idleNow.claim]
          rfl
      | some jobId =>
          have dead : Holds (.replaying jobId)
              (Tallies budget .deadLettered) after :=
            ⟨effect.1, effect.2.2.2.2⟩
          refine follows_await rfl (fun _ _ => trivial) ?_
          intro now' after' found rely' effect'
          have still := dead.rely rely'
          cases found with
          | none =>
              have ended : after'.claim = .none := by
                rw [effect'.1, still.claim]
                rfl
              exact ih replayed ⟨ended, effect'.2.2.2.1 ended⟩
          | some job =>
              have reset : Holds (.replaying jobId) (Tallies budget .ready)
                  after' := by
                obtain ⟨time, same⟩ := effect'.2.2.2.2 still.claim
                rw [same]
                refine ⟨still.claim, fun row is => ?_⟩
                obtain ⟨old, was, rfl⟩ := Option.map_eq_some_iff.mp is
                exact tallies_of_reset positive (still.all old was)
              refine Follows.bind ((follows_release rfl reset ?_ fun _ =>
                rfl).mono ?_)
              · exact fun now holds row is => pushed_of_ready (holds.all row is)
              · rintro later (failure | _) idle
                · exact idle.row
                · exact ih _ idle

/-- Every process works as the policy says from its start on. -/
theorem main_follows (positive : 0 < budget) (role : Role) (idle : Idle view) :
    (courseDiscipline budget).Follows LetGo (role.main deployment) view := by
  cases role with
  | enqueue input =>
      refine Follows.bind ((enqueue_follows positive input idle).mono ?_)
      rintro now (failure | job) gone
      · exact gone
      · exact letGo_pure gone
  | replay limit =>
      refine Follows.bind ((replayLoop_follows positive limit [] idle).mono ?_)
      rintro now (failure | jobIds) gone
      · exact gone
      · exact letGo_pure gone
  | worker =>
      refine Follows.bind ((consume_follows idle).mono ?_)
      rintro now (failure | done) gone
      · exact gone
      · exact letGo_pure gone

end CourseDiscipline

end WebhookDelivery
