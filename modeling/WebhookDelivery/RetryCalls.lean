import WebhookDelivery.RetryCourses

/-!
# What a call means for the job of its process

Every call is executed on the stores and compared with what the course
discipline expects of it.
-/

namespace WebhookDelivery

open Concurrency

namespace Postgres

/-- An update that does not raise has written its row, if there is one. -/
theorem updateState_jobs {now : Int} {update : StateUpdate} {db : Postgres}
    {found : Option Job} (written : (db.updateState now update).1 = .ok found) :
    (db.updateState now update).2.jobs update.id =
      (db.jobs update.id).map (update.apply now) := by
  rcases db.updateState_cases now update with
    ⟨was, done⟩ | ⟨old, was, ⟨failure, done⟩ | ⟨_, done⟩⟩
  · rw [done, was]
    rfl
  · rw [done] at written
    cases written
  · have stored : old.id = update.id := db.keyed was
    have key : (update.apply now old).id = update.id := stored
    rw [done, was, setJob_jobs, key, if_pos rfl]
    rfl

/-- A reset writes its row, if there is one. -/
theorem resetForReplay_jobs (now : Int) (id : JobId) (db : Postgres) :
    (db.resetForReplay now id).2.jobs id =
      (db.jobs id).map (JobRow.reset now) := by
  rcases db.resetForReplay_cases now id with ⟨was, done⟩ | ⟨old, was, done⟩
  · rw [done, was]
    rfl
  · have stored : old.id = id := db.keyed was
    have key : (old.reset now).id = id := stored
    rw [done, was, setJob_jobs, key, if_pos rfl]
    rfl

/-- An insertion that does not raise has added a record to its job. -/
theorem insertAttempt_jobs (record : AttemptRecord) (db : Postgres) :
    (db.insertAttempt record).2.jobs = db.jobs := by
  unfold insertAttempt
  split
  · rfl
  · split
    · rfl
    · split <;> rfl

end Postgres

namespace CourseInvariant

variable {deployment : Deployment} {before : State} {courses : JobId → Course}
  {pid : Pid} {call : Call} {jobId : JobId} {row : JobRow}

section Performed

variable {choice : Choice} {resumed : Except AppError call.Reply → Process}

theorem advance_call (pending : before.pending? pid = some call) :
    before.advance deployment (.call pid choice) courses jobId =
      match call.occurrence? (before.claim pid) jobId
          (exec deployment choice call before.store).1 with
      | some occurrence =>
          (courses jobId).next deployment.maxAttempts occurrence
      | none => courses jobId := by
  have same : occurrence? deployment jobId before (.call pid choice) =
      call.occurrence? (before.claim pid) jobId
        (exec deployment choice call before.store).1 := by
    simp only [occurrence?, pending, Option.bind_some]
  cases occurs : call.occurrence? (before.claim pid) jobId
    (exec deployment choice call before.store).1 <;>
      simp only [State.advance, same, occurs]

/-- What a process sees of a job after a call of its own. -/
theorem courseView_perform (pending : before.pending? pid = some call)
    {claim : Claim} (about : claim.job? = some jobId) :
    (before.perform deployment pid choice call resumed).courseView
        (before.advance deployment (.call pid choice) courses) claim =
      { claim := claim
        row := (exec deployment choice call before.store).2.db.jobs jobId
        records := before.records jobId + if Event.recorded?
          ⟨pid, call, (exec deployment choice call before.store).1⟩ =
            some jobId then 1 else 0
        course := match call.occurrence? (before.claim pid) jobId
            (exec deployment choice call before.store).1 with
          | some occurrence =>
              (courses jobId).next deployment.maxAttempts occurrence
          | none => courses jobId } := by
  rw [courseView_of_job about, advance_call pending, State.records,
    State.perform_store, exec_records _ _ _ _ pid]
  rfl

theorem courseView_spared (pending : before.pending? pid = some call)
    {claim : Claim} (about : claim.job? = some jobId)
    (spared : (exec deployment choice call before.store).2.db.jobs =
      before.store.db.jobs)
    (unrecorded : Event.recorded?
      ⟨pid, call, (exec deployment choice call before.store).1⟩ = none) :
    (before.perform deployment pid choice call resumed).courseView
        (before.advance deployment (.call pid choice) courses) claim =
      { before.courseView courses claim with
        course := match call.occurrence? (before.claim pid) jobId
            (exec deployment choice call before.store).1 with
          | some occurrence =>
              (courses jobId).next deployment.maxAttempts occurrence
          | none => courses jobId } := by
  rw [courseView_perform pending about, courseView_of_job about, spared,
    unrecorded]
  rfl

/-- A call that spares rows and records, and by which nothing happens. -/
theorem courseView_kept (pending : before.pending? pid = some call)
    (spared : (exec deployment choice call before.store).2.db.jobs =
      before.store.db.jobs)
    (unrecorded : Event.recorded?
      ⟨pid, call, (exec deployment choice call before.store).1⟩ = none)
    (uneventful : ∀ jobId, call.occurrence? (before.claim pid) jobId
      (exec deployment choice call before.store).1 = none) (claim : Claim) :
    (before.perform deployment pid choice call resumed).courseView
        (before.advance deployment (.call pid choice) courses) claim =
      before.courseView courses claim := by
  cases about : claim.job? with
  | none => simp only [State.courseView, about, Option.bind_none,
      Option.elim_none]
  | some jobId =>
      rw [courseView_spared pending about spared unrecorded, uneventful,
        courseView_of_job about]

/-- A job in `ready` or in the dead-letter queue is there by its course. -/
theorem tallies_of_waiting
    (invariant : CourseInvariant deployment courses before)
    (stored : before.store.db.jobs jobId = some row)
    (waiting : 0 < (before.places jobId).ready +
      (before.places jobId).dlq) :
    ∃ position, Tallies deployment.maxAttempts position row
        (before.records jobId) (courses jobId) ∧
      before.places jobId = position.places := by
  refine invariant.tallies stored fun pid => ?_
  refine (invariant.rows.queue.custody jobId).unheld_of_waiting ?_ pid
  omega

/-- What the claimed job of a process is after one of the two calls that take
a job from a queue. -/
theorem tallies_of_popped
    (invariant : CourseInvariant deployment courses before)
    (pending : before.pending? pid = some call) {claim : Claim}
    {position : Position} (about : claim.job? = some jobId)
    (spared : (exec deployment choice call before.store).2.db.jobs =
      before.store.db.jobs)
    (unrecorded : Event.recorded?
      ⟨pid, call, (exec deployment choice call before.store).1⟩ = none)
    (uneventful : ∀ jobId, call.occurrence? (before.claim pid) jobId
      (exec deployment choice call before.store).1 = none)
    (waiting : 0 < (before.places jobId).ready +
      (before.places jobId).dlq)
    (popped : ∀ other : Position, before.places jobId = other.places →
      other = position) :
    ((before.perform deployment pid choice call resumed).courseView
      (before.advance deployment (.call pid choice) courses) claim).All
        (Tallies deployment.maxAttempts position) := by
  rw [courseView_kept pending spared unrecorded uneventful,
    courseView_of_job about]
  intro row stored
  obtain ⟨other, tallies, places⟩ :=
    invariant.tallies_of_waiting stored waiting
  rw [← popped other places]
  exact tallies

/-- The webhook of a claimed job is registered. -/
theorem registered_of_view
    (invariant : CourseInvariant deployment courses before) {claim : Claim}
    (stored : (before.courseView courses claim).row = some row) :
    ∃ webhook, before.store.db.webhooks row.webhookId = some webhook := by
  obtain ⟨jobId, _, found⟩ := Option.bind_eq_some_iff.mp stored
  exact invariant.registered found

/-- What the discipline expects of a completed call. -/
private abbrev Written (deployment : Deployment) (before : State)
    (courses : JobId → Course) (pid : Pid) (choice : Choice) (call : Call)
    (resumed : Except AppError call.Reply → Process) : Prop :=
  (before.courseView courses (before.claim pid)).Writes
    deployment.maxAttempts
    ((before.perform deployment pid choice call resumed).courseView
      (before.advance deployment (.call pid choice) courses)
      ((before.claim pid).after call
        (exec deployment choice call before.store).1)) call
    (exec deployment choice call before.store).1

/-- A job that is taken from `ready` is queued. -/
private theorem written_by_brpoplpush
    (invariant : CourseInvariant deployment courses before)
    {resumed} (pending : before.pending? pid = some .brpoplpush) :
    Written deployment before courses pid choice .brpoplpush resumed := by
  unfold Written
  cases popped : before.store.redis.brpoplpush.1 with
  | none =>
      simp only [exec, popped]
      intro impossible
      cases impossible
  | some id =>
      have ready := ready_of_brpoplpush popped
      have outcome : (exec deployment choice .brpoplpush before.store).1 =
          .ok (some id) := congrArg Except.ok popped
      have all := @tallies_of_popped _ _ _ pid .brpoplpush id choice
        resumed invariant pending (.popped id) .ready rfl rfl rfl
        (fun _ => rfl) (Nat.add_pos_left ready _) ?_
      · rw [outcome]
        exact all
      · intro other places
        rw [State.places] at places
        rw [places] at ready
        cases other <;> first | rfl | cases ready

/-- A job that is taken from the dead-letter queue is dead. -/
private theorem written_by_popDlq
    (invariant : CourseInvariant deployment courses before)
    {resumed} (pending : before.pending? pid = some .popDlq) :
    Written deployment before courses pid choice .popDlq resumed := by
  unfold Written
  cases popped : before.store.redis.popDlq.1 with
  | none =>
      simp only [exec, popped]
      intro impossible
      cases impossible
  | some id =>
      have dead := dlq_of_popDlq popped
      have outcome : (exec deployment choice .popDlq before.store).1 =
          .ok (some id) := congrArg Except.ok popped
      have all := @tallies_of_popped _ _ _ pid .popDlq id choice
        resumed invariant pending (.replaying id) .deadLettered rfl rfl
        rfl (fun _ => rfl) (Nat.add_pos_right _ dead) ?_
      · rw [outcome]
        exact all
      · intro other places
        rw [State.places] at places
        rw [places] at dead
        cases other <;> first | rfl | cases dead

/-- A new job is at the start of its course. -/
private theorem written_by_insertJob
    (invariant : CourseInvariant deployment courses before)
    {input : JobInput} {resumed}
    (pending : before.pending? pid = some (.insertJob input)) :
    Written deployment before courses pid choice
      (.insertJob input) resumed := by
  unfold Written
  rcases before.store.db.insertJob_cases deployment.jsonb
    deployment.maxAttempts choice.uuid choice.now input with
    ⟨failure, raised⟩ | ⟨payload, _, unissued, _, done⟩
  · simp only [exec, raised]
    intro impossible
    cases impossible
  have outcome : (exec deployment choice (.insertJob input)
      before.store).1 =
        .ok (input.newRow deployment.maxAttempts choice.uuid
          choice.now payload).toJob := by
    simp only [exec, done]
  obtain ⟨fresh, unrecorded⟩ := invariant.unissued unissued
  rw [outcome]
  intro row found
  rw [courseView_perform pending rfl] at found ⊢
  have written : row = input.newRow deployment.maxAttempts choice.uuid
      choice.now payload := by
    simp only [exec, done] at found
    exact Option.some.inj (found.symm.trans
      ((before.store.db.setJob_jobs _ _).trans (if_pos rfl)))
  subst written
  exact ⟨rfl, rfl, rfl, unrecorded, fresh⟩

/-- An update that does not raise changes the row alone. -/
private theorem written_by_updateState {update : StateUpdate} {resumed}
    (pending : before.pending? pid = some (.updateState update)) :
    Written deployment before courses pid choice
      (.updateState update) resumed := by
  unfold Written
  cases outcome : (exec deployment choice (.updateState update)
    before.store).1 with
  | error failure =>
      intro impossible
      cases impossible
  | ok found =>
      intro (reserved : before.claim pid = .reserved update.id)
      refine ⟨choice.now, ?_⟩
      have about : (before.claim pid).job? = some update.id := by
        rw [reserved]
        rfl
      have written : (exec deployment choice (.updateState update)
          before.store).2.db.jobs update.id = _ :=
        Postgres.updateState_jobs outcome
      rw [show (before.claim pid).after (.updateState update) (.ok found) =
        before.claim pid from rfl, courseView_perform pending about,
        courseView_of_job about, written]
      rfl

/-- A reset sets the row and the course back. -/
private theorem written_by_resetForReplay {id : JobId} {resumed}
    (pending : before.pending? pid = some (.resetForReplay id)) :
    Written deployment before courses pid choice
      (.resetForReplay id) resumed := by
  unfold Written
  rcases before.store.db.resetForReplay_cases choice.now id with
    ⟨was, done⟩ | ⟨old, was, done⟩
  · have outcome : (exec deployment choice (.resetForReplay id)
        before.store).1 = .ok none := by
      simp only [exec, done]
    rw [outcome]
    intro (replaying : before.claim pid = .replaying id)
    rw [courseView_of_job (by rw [replaying]; rfl)]
    exact was
  · have outcome : (exec deployment choice (.resetForReplay id)
        before.store).1 = .ok (some (old.reset choice.now).toJob) := by
      simp only [exec, done]
    have reset : (exec deployment choice (.resetForReplay id)
        before.store).2.db.jobs id = _ :=
      Postgres.resetForReplay_jobs choice.now id before.store.db
    rw [outcome]
    intro (replaying : before.claim pid = .replaying id)
    have about : (before.claim pid).job? = some id := by
      rw [replaying]
      rfl
    refine ⟨choice.now, ?_⟩
    rw [show (before.claim pid).after (.resetForReplay id) (.ok (some _)) =
      before.claim pid from rfl, courseView_perform pending about,
      courseView_of_job about, reset, outcome]
    simp only [Call.occurrence?, if_true]
    rfl

/-- An insert that does not raise adds a record. -/
private theorem written_by_insertAttempt {record : AttemptRecord} {resumed}
    (pending : before.pending? pid = some (.insertAttempt record)) :
    Written deployment before courses pid choice
      (.insertAttempt record) resumed := by
  unfold Written
  cases outcome : (exec deployment choice (.insertAttempt record)
    before.store).1 with
  | error failure =>
      intro impossible
      cases impossible
  | ok done =>
      intro (reserved : before.claim pid = .reserved record.jobId)
      have about : (before.claim pid).job? = some record.jobId := by
        rw [reserved]
        rfl
      have spared : (exec deployment choice (.insertAttempt record)
          before.store).2.db.jobs = _ :=
        Postgres.insertAttempt_jobs record before.store.db
      rw [show (before.claim pid).after (.insertAttempt record) (.ok done) =
        before.claim pid from rfl, courseView_perform pending about,
        courseView_of_job about, spared, outcome]
      simp only [Event.recorded?, if_true]
      rfl

/-- A request is a delivery, whatever its outcome. -/
private theorem written_by_fetch {request : DeliveryRequest} {resumed}
    (pending : before.pending? pid = some (.fetch request)) :
    Written deployment before courses pid choice
      (.fetch request) resumed := by
  unfold Written
  intro (reserved : before.claim pid = .reserved request.jobId)
  have about : (before.claim pid).job? = some request.jobId := by
    rw [reserved]
    rfl
  rw [show (before.claim pid).after (.fetch request) _ =
    before.claim pid from rfl, courseView_perform pending about,
    courseView_of_job about]
  simp only [Call.occurrence?, if_true]
  rfl

/-- An open circuit defers the job. -/
private theorem written_by_checkCircuit {webhookId : WebhookId}
    {now cooldownMs : Int} {resumed}
    (pending : before.pending? pid =
      some (.checkCircuit webhookId now cooldownMs)) :
    Written deployment before courses pid choice
      (.checkCircuit webhookId now cooldownMs) resumed := by
  unfold Written
  intro jobId (reserved : before.claim pid = .reserved jobId)
  have about : (before.claim pid).job? = some jobId := by
    rw [reserved]
    rfl
  rw [show (before.claim pid).after (.checkCircuit webhookId now
    cooldownMs) _ = before.claim pid from rfl,
    courseView_spared pending about rfl rfl, courseView_of_job about]
  simp only [exec, Call.occurrence?, reserved, true_and]
  by_cases opened : (before.store.redis.checkCircuit webhookId now
    cooldownMs).1 = .opened <;> simp only [opened, if_true, if_false]

/-- A rate limit that denies the request defers the job. -/
private theorem written_by_take {webhookId : WebhookId}
    {rate burst now cost : Int} {resumed}
    (pending : before.pending? pid = some (.take webhookId rate burst now cost)) :
    Written deployment before courses pid choice
      (.take webhookId rate burst now cost) resumed := by
  unfold Written
  cases outcome : (exec deployment choice (.take webhookId rate burst now
    cost) before.store).1 with
  | error failure =>
      intro impossible
      cases impossible
  | ok reply =>
      intro jobId (reserved : before.claim pid = .reserved jobId)
      have about : (before.claim pid).job? = some jobId := by
        rw [reserved]
        rfl
      rw [show (before.claim pid).after (.take webhookId rate burst now
        cost) (.ok reply) = before.claim pid from rfl,
        courseView_spared pending about rfl rfl, courseView_of_job about,
        outcome]
      simp only [Call.occurrence?, reserved, true_and]
      cases allowed : reply.allowed <;> simp

/-- What a completed call means for the job of its process. -/
theorem writes_of_performed
    (invariant : CourseInvariant deployment courses before)
    (pending : before.pending? pid = some call) :
    (before.courseView courses (before.claim pid)).Writes
      deployment.maxAttempts
      ((before.perform deployment pid choice call resumed).courseView
        (before.advance deployment (.call pid choice) courses)
        ((before.claim pid).after call
          (exec deployment choice call before.store).1)) call
      (exec deployment choice call before.store).1 := by
  cases call with
  | brpoplpush => exact written_by_brpoplpush invariant pending
  | popDlq => exact written_by_popDlq invariant pending
  | insertJob input => exact written_by_insertJob invariant pending
  | zaddLease id expiry =>
      intro (popped : before.claim pid = .popped id)
      rw [courseView_kept pending rfl rfl (fun _ => rfl), popped]
      rfl
  | findJob id =>
      intro (reserved : before.claim pid = .reserved id)
      refine ⟨courseView_kept pending rfl rfl (fun _ => rfl) _, ?_⟩
      rw [courseView_of_job (by rw [reserved]; rfl)]
      rfl
  | updateState update => exact written_by_updateState pending
  | resetForReplay id => exact written_by_resetForReplay pending
  | insertAttempt record => exact written_by_insertAttempt pending
  | fetch request => exact written_by_fetch pending
  | responseText => exact courseView_kept pending rfl rfl (fun _ => rfl) _
  | checkCircuit webhookId now cooldownMs => exact written_by_checkCircuit pending
  | take webhookId rate burst now cost => exact written_by_take pending
  | findWebhook id =>
      refine ⟨courseView_kept pending rfl rfl (fun _ => rfl) _, ?_⟩
      rintro missing row stored rfl
      obtain ⟨webhook, found⟩ := invariant.registered_of_view stored
      rw [found] at missing
      cases missing
  | findSecret id =>
      refine ⟨courseView_kept pending rfl rfl (fun _ => rfl) _, ?_⟩
      rintro useless row stored rfl
      obtain ⟨webhook, found⟩ := invariant.registered_of_view stored
      rw [found] at useless
      rcases useless with missing | empty
      · cases missing
      · exact invariant.secret found (Option.some.inj empty)
  | now => exact fun _ => courseView_kept pending rfl rfl (fun _ => rfl) _
  | random => exact fun _ => courseView_kept pending rfl rfl (fun _ => rfl) _
  | recordSuccess id =>
      exact fun _ => courseView_kept pending rfl rfl (fun _ => rfl) _
  | recordFailure id threshold now =>
      exact fun _ => courseView_kept pending rfl rfl (fun _ => rfl) _
  | nextAttemptNumber id =>
      exact fun _ => courseView_kept pending rfl rfl (fun _ => rfl) _
  | _ =>
      intro impossible
      cases impossible

end Performed

end CourseInvariant

end WebhookDelivery
