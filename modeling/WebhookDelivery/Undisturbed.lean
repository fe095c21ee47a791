import WebhookDelivery.Library.Weakest
import WebhookDelivery.Solo

/-!
# A process that nobody disturbs

While one process acts and its calls are all answered under one choice of the
environment, the system follows the weakest precondition of its program.  An
iteration of a worker whose way is clear delivers the oldest ready job.
-/

namespace WebhookDelivery

open Concurrency

/-- The stores, and the calls a process has made on them, latest first. -/
abbrev World : Type := Store × List Event

section Answers

variable (deployment : Deployment) (pid : Pid) (choice : Choice)

/-- One call of the process under the given choice. -/
def answers (call : Call) (world : World) :
    Except AppError call.Reply × World :=
  let result := exec deployment choice call world.1
  (result.1, result.2, ⟨pid, call, result.1⟩ :: world.2)

abbrev Async.Leads {Value : Type} (program : Async Value)
    (post : Except AppError Value → World → Prop) (world : World) : Prop :=
  Program.Leads (answers deployment pid choice) post program world

end Answers

/-- What a worker finds that delivers a job at its first attempt. -/
structure Clear (deployment : Deployment) (choice : Choice) (row : JobRow)
    (webhook : WebhookRow) (store : Store) : Prop where
  stored : store.db.jobs row.id = some row
  registered : store.db.webhooks row.webhookId = some webhook
  signed : webhook.secret ≠ ""
  sendable : deployment.sends webhook.url row.eventType
  unfinished : ¬(row.state = .succeeded ∨ row.state = .dead)
  budget : row.attempts < row.maxAttempts
  passes : (Circuit.checkScript choice.now deployment.cooldownMs
    (store.redis.breaker row.webhookId)).1 ≠ .opened
  granted : (RateLimit.takeScript deployment.perSecond deployment.burst
    choice.now 1 (store.redis.bucket row.webhookId)).1.allowed = true
  metered : deployment.perSecond ≠ 0
  answered : choice.response = .ok 200
  read : choice.text = .ok ""

/-- The webhook has accepted a request for the job. -/
def Accepted (row : JobRow) (webhook : WebhookRow) (pid : Pid)
    (calls : List Event) : Prop :=
  ∃ request : DeliveryRequest, request.jobId = row.id ∧
    request.url = webhook.url ∧ request.body = row.payload ∧
      ⟨pid, .fetch request, .ok 200⟩ ∈ calls

/-- A worker has sent the job to its webhook, which has accepted it, has
recorded the success and has acknowledged the job. -/
structure Delivered (row : JobRow) (webhook : WebhookRow) (pid : Pid)
    (calls : List Event) (store : Store) : Prop where
  accepted : Accepted row webhook pid calls
  succeeded : ∃ settled, store.db.jobs row.id = some settled ∧
    settled.state = .succeeded
  acknowledged : ⟨pid, .ack row.id, .ok ()⟩ ∈ calls

theorem Delivered.append {row : JobRow} {webhook : WebhookRow} {pid : Pid}
    {calls : List Event} {store : Store}
    (delivered : Delivered row webhook pid calls store)
    (earlier : List Event) :
    Delivered row webhook pid (calls ++ earlier) store where
  accepted := by
    obtain ⟨request, own, url, body, sent⟩ := delivered.accepted
    exact ⟨request, own, url, body, List.mem_append_left _ sent⟩
  succeeded := delivered.succeeded
  acknowledged := List.mem_append_left _ delivered.acknowledged

namespace Undisturbed

variable {deployment : Deployment} {pid : Pid} {choice : Choice}
  {Value : Type} {post : Except AppError Value → World → Prop}
  {row : JobRow} {webhook : WebhookRow} {store : Store} {calls : List Event}

/-- A call that is answered, and what follows the answer. -/
theorem leads_step {call : Call} {reply : call.Reply}
    {rest : call.Reply → Async Value}
    (outcome : (exec deployment choice call store).1 = .ok reply)
    (following : Async.Leads deployment pid choice (rest reply) post
      ((exec deployment choice call store).2,
        ⟨pid, call, .ok reply⟩ :: calls)) :
    Async.Leads deployment pid choice ((await call).bind rest) post
      (store, calls) := by
  have answered : (answers deployment pid choice call (store, calls)).1 =
      .ok reply := outcome
  apply Program.Leads.step answered
  simp only [answers, outcome]
  exact following

/-- A last call that is answered. -/
theorem leads_last {call : Call} {reply : call.Reply}
    {post : Except AppError call.Reply → World → Prop}
    (outcome : (exec deployment choice call store).1 = .ok reply)
    (ends : post (.ok reply) ((exec deployment choice call store).2,
      ⟨pid, call, .ok reply⟩ :: calls)) :
    Async.Leads deployment pid choice (await call) post (store, calls) := by
  rw [Async.Leads, Program.leads_perform]
  simp only [answers, outcome]
  exact ends

/-- An update that Postgres takes. -/
theorem leads_update {update : StateUpdate} {rest : Option Job → Async Value}
    (stored : store.db.jobs update.id = some row)
    (storable : update.lastError.all storableText)
    (within : (update.apply choice.now row).attempts ≤ row.maxAttempts)
    (following : Async.Leads deployment pid choice
      (rest (some (update.apply choice.now row).toJob)) post
        (store.withDb (store.db.setJob (update.apply choice.now row)),
          ⟨pid, .updateState update,
            .ok (some (update.apply choice.now row).toJob)⟩ :: calls)) :
    Async.Leads deployment pid choice
      ((JobRepository.updateState update).bind rest) post (store, calls) := by
  have limit : (update.apply choice.now row).attempts ≤
      (update.apply choice.now row).maxAttempts := within
  have taken : store.db.updateState choice.now update =
      (.ok (some (update.apply choice.now row).toJob),
        store.db.setJob (update.apply choice.now row)) := by
    simp [Postgres.updateState, stored, storable, limit]
  have executed : exec deployment choice (.updateState update) store =
      (.ok (some (update.apply choice.now row).toJob),
        store.withDb (store.db.setJob (update.apply choice.now row))) := by
    simp only [exec, taken]
  apply leads_step (congrArg Prod.fst executed)
  rw [executed]
  exact following

/-- A record under the next number of its job. -/
theorem leads_insertAttempt {record : AttemptRecord}
    {rest : Unit → Async Value}
    (stored : store.db.jobs record.jobId = some row)
    (next : record.attemptNumber = store.db.nextAttemptNumber record.jobId)
    (storable : record.responseBody.all storableText &&
      record.error.all storableText)
    (following : Async.Leads deployment pid choice (rest ()) post
      (store.withDb { store.db with
        deliveryAttempts := store.db.deliveryAttempts ++ [record] },
          ⟨pid, .insertAttempt record, .ok ()⟩ :: calls)) :
    Async.Leads deployment pid choice
      ((await (.insertAttempt record)).bind rest) post (store, calls) := by
  have fresh : record.attemptNumber ∉
      (store.db.attemptsOf record.jobId).map AttemptRecord.attemptNumber := by
    rw [next]
    exact Solo.nextAttemptNumber_fresh store.db record.jobId
  have inserted : store.db.insertAttempt record =
      (.ok (), { store.db with
        deliveryAttempts := store.db.deliveryAttempts ++ [record] }) := by
    unfold Postgres.insertAttempt
    rw [if_neg (by simp [stored]), if_neg fresh, if_neg (by simp [storable])]
  have executed : exec deployment choice (.insertAttempt record) store =
      (.ok (), store.withDb { store.db with
        deliveryAttempts := store.db.deliveryAttempts ++ [record] }) := by
    simp only [exec, inserted]
  apply leads_step (congrArg Prod.fst executed)
  rw [executed]
  exact following

/-- A request that the endpoint accepts with an empty body. -/
theorem send_leads {request : DeliveryRequest}
    (sendable : deployment.sends request.url request.eventType)
    (answered : choice.response = .ok 200) (read : choice.text = .ok "") :
    Async.Leads deployment pid choice (DeliveryService.send request)
      (fun outcome after => outcome = .ok (some 200, some "", none) ∧
        after = (store, ⟨pid, .responseText, .ok ""⟩ ::
          ⟨pid, .fetch request, .ok 200⟩ :: calls)) (store, calls) := by
  have reached : (exec deployment choice (.fetch request) store).1 =
      .ok 200 := by
    simp only [exec, Option.isNone_iff_eq_none.mp sendable, answered]
  have body : (exec deployment choice .responseText
      (exec deployment choice (.fetch request) store).2).1 = .ok "" := read
  unfold DeliveryService.send
  rw [Async.Leads, Program.leads_bind, Program.leads_attempt,
    Program.leads_perform]
  simp only [answers, reached]
  rw [Program.leads_bind, Program.leads_attempt, Program.leads_perform]
  simp only [answers, body]
  exact ⟨rfl, rfl⟩

theorem deliver_leads {current : JobRow} {secret : String}
    (stored : store.db.jobs row.id = some current)
    (sendable : deployment.sends webhook.url row.eventType)
    (answered : choice.response = .ok 200) (read : choice.text = .ok "") :
    Async.Leads deployment pid choice
      (DeliveryService.deliver deployment row.toJob webhook.url secret)
      (fun outcome after => ∃ result, outcome = .ok result ∧
        result.success = true ∧ after.1.db.jobs = store.db.jobs ∧
          Accepted row webhook pid after.2) (store, calls) := by
  apply leads_step rfl
  apply leads_step rfl
  apply leads_step rfl
  apply Program.Leads.bind
  apply (send_leads sendable answered read).mono
  rintro _ _ ⟨rfl, rfl⟩
  refine ⟨_, rfl, ?_⟩
  apply leads_step rfl
  apply leads_insertAttempt stored rfl rfl
  exact ⟨_, rfl, rfl, rfl, _, rfl, rfl, rfl,
    .tail _ (.tail _ (.tail _ (.head _)))⟩

theorem settle_leads {current : JobRow}
    {result : DeliveryService.DeliveryResult}
    (stored : store.db.jobs row.id = some current)
    (within : current.attempts < current.maxAttempts)
    (success : result.success = true)
    (accepted : Accepted row webhook pid calls) :
    Async.Leads deployment pid choice
      (JobService.settle deployment row.id row.toJob result)
      (fun outcome after => outcome = .ok () ∧
        Delivered row webhook pid after.2 after.1) (store, calls) := by
  unfold JobService.settle
  rw [if_pos success]
  apply leads_step rfl
  refine leads_update stored rfl within ?_
  have settled := (Postgres.setJob_jobs store.db (StateUpdate.apply
    { id := row.id, state := .succeeded, incrementAttempts := true }
      choice.now current) row.id).trans
        (if_pos (store.db.keyed stored).symm)
  refine ⟨rfl, ?_, ⟨_, settled, rfl⟩, .head _⟩
  obtain ⟨request, own, url, body, sent⟩ := accepted
  exact ⟨request, own, url, body, .tail _ (.tail _ (.tail _ sent))⟩

theorem deliverJob_leads (stored : store.db.jobs row.id = some row)
    (registered : store.db.webhooks row.webhookId = some webhook)
    (signed : webhook.secret ≠ "")
    (sendable : deployment.sends webhook.url row.eventType)
    (budget : row.attempts < row.maxAttempts)
    (answered : choice.response = .ok 200) (read : choice.text = .ok "") :
    Async.Leads deployment pid choice
      (JobService.deliverJob deployment row.id row.toJob)
      (fun outcome after => outcome = .ok () ∧
        Delivered row webhook pid after.2 after.1) (store, calls) := by
  apply leads_update stored rfl (by simpa [StateUpdate.apply] using budget.le)
  have found : (store.withDb (store.db.setJob (StateUpdate.apply
      { id := row.id, state := .inFlight } choice.now row))).db.jobs row.id =
        some (StateUpdate.apply { id := row.id, state := .inFlight }
          choice.now row) :=
    (Postgres.setJob_jobs ..).trans (if_pos rfl)
  apply Program.Leads.bind
  have webhookFound : (exec deployment choice
      (.findWebhook row.toJob.webhookId) (store.withDb (store.db.setJob
        (StateUpdate.apply { id := row.id, state := .inFlight } choice.now
          row)))).1 = .ok (some webhook.toWebhook) :=
    congrArg (fun found => Except.ok (Option.map WebhookRow.toWebhook found))
      registered
  apply leads_step webhookFound
  refine ⟨_, rfl, ?_⟩
  apply Program.Leads.bind
  have secretFound : (exec deployment choice
      (.findSecret row.toJob.webhookId) (store.withDb (store.db.setJob
        (StateUpdate.apply { id := row.id, state := .inFlight } choice.now
          row)))).1 = .ok (some webhook.secret) :=
    congrArg (fun found => Except.ok (Option.map WebhookRow.secret found))
      registered
  apply leads_step secretFound
  show Async.Leads _ _ _ (ite _ _ _) _ _
  rw [if_neg signed]
  refine ⟨_, rfl, ?_⟩
  apply Program.Leads.bind
  apply (deliver_leads found sendable answered read).mono
  rintro _ ⟨after, calls⟩ ⟨result, rfl, success, same, accepted⟩
  refine ⟨_, rfl, ?_⟩
  have kept : after.db.jobs row.id = some (StateUpdate.apply
      { id := row.id, state := .inFlight } choice.now row) := by
    rw [same]
    exact found
  exact settle_leads kept (by simpa [StateUpdate.apply] using budget)
    success accepted

/-- The breaker's script leaves everything but the breakers as it is. -/
theorem checkCircuit_cases (redis : Redis) (webhookId : WebhookId)
    (now cooldownMs : Int) :
    (redis.checkCircuit webhookId now cooldownMs).1 =
        (Circuit.checkScript now cooldownMs (redis.breaker webhookId)).1 ∧
      (redis.checkCircuit webhookId now cooldownMs).2.bucket =
        redis.bucket := by
  unfold Redis.checkCircuit
  split <;> rename_i checked <;> rw [checked] <;> exact ⟨rfl, rfl⟩

theorem process_leads (clear : Clear deployment choice row webhook store) :
    Async.Leads deployment pid choice (JobService.process deployment row.id)
      (fun outcome after => outcome = .ok () ∧
        Delivered row webhook pid after.2 after.1) (store, calls) := by
  have found : (exec deployment choice (.findJob row.id) store).1 =
      .ok (some row.toJob) :=
    congrArg (fun found => Except.ok (Option.map JobRow.toJob found))
      clear.stored
  apply leads_step found
  show Async.Leads _ _ _ (ite (row.state = .succeeded ∨ row.state = .dead) _ _)
    _ _
  rw [if_neg clear.unfinished]
  apply Program.Leads.bind
  apply leads_step rfl
  obtain ⟨state, bucket⟩ := checkCircuit_cases store.redis row.webhookId
    choice.now deployment.cooldownMs
  have passes : (store.redis.checkCircuit row.webhookId choice.now
      deployment.cooldownMs).1 ≠ .opened := by
    rw [state]
    exact clear.passes
  refine leads_last rfl ⟨_, rfl, ?_⟩
  show Async.Leads _ _ _ (ite ((store.redis.checkCircuit row.webhookId
    choice.now deployment.cooldownMs).1 = .opened) _ _) _ _
  rw [if_neg passes]
  apply Program.Leads.bind
  apply leads_step rfl
  have taken : ∀ limited : Redis, limited.bucket = store.redis.bucket →
      (exec deployment choice (.take row.webhookId deployment.perSecond
        deployment.burst choice.now 1) (store.withRedis limited)).1 =
      .ok (RateLimit.takeScript deployment.perSecond deployment.burst
        choice.now 1 (store.redis.bucket row.webhookId)).1 := by
    intro limited same
    simp only [exec, Store.withRedis, Redis.take, if_neg clear.metered, same]
  refine leads_last (taken _ bucket) ⟨_, rfl, ?_⟩
  show Async.Leads _ _ _ (ite (!(RateLimit.takeScript deployment.perSecond
    deployment.burst choice.now 1 (store.redis.bucket
      row.webhookId)).1.allowed) _ _) _ _
  rw [clear.granted]
  exact deliverJob_leads clear.stored clear.registered clear.signed
    clear.sendable clear.budget clear.answered clear.read

/-- `reserve` hands out the job at the end of `ready`. -/
theorem reserve_leads {jobId : JobId}
    (last : store.redis.ready.getLast? = some jobId) :
    Async.Leads deployment pid choice Queue.reserve
      (fun outcome after => outcome = .ok (some jobId) ∧
        after.1.db = store.db ∧
        after.1.redis.breaker = store.redis.breaker ∧
        after.1.redis.bucket = store.redis.bucket) (store, calls) := by
  have popped : (exec deployment choice .brpoplpush store).1 =
      .ok (some jobId) := by
    simp only [exec, Redis.brpoplpush, last]
  apply leads_step popped
  apply leads_step rfl
  apply leads_step rfl
  refine ⟨rfl, rfl, ?_⟩
  simp only [exec, Redis.brpoplpush, last, Store.withRedis, Redis.zaddLease]
  exact ⟨rfl, rfl⟩

/-- One iteration of a worker with a clear way delivers the job that has waited
longest in `ready`. -/
theorem consume_leads (last : store.redis.ready.getLast? = some row.id)
    (clear : Clear deployment choice row webhook store) :
    Async.Leads deployment pid choice (Role.worker.main deployment)
      (fun _ after => Delivered row webhook pid after.2 after.1)
      (store, calls) := by
  unfold Role.main
  rw [Async.Leads, Program.leads_map]
  unfold Worker.consume
  rw [Program.leads_bind, Program.leads_attempt]
  apply (reserve_leads last).mono
  rintro _ ⟨after, calls⟩ ⟨rfl, db, breaker, bucket⟩
  have still : Clear deployment choice row webhook after :=
    { clear with
      stored := by rw [db]; exact clear.stored
      registered := by rw [db]; exact clear.registered
      passes := by rw [breaker]; exact clear.passes
      granted := by rw [bucket]; exact clear.granted }
  show Program.Leads _ _ (Program.tryCatch _ _) _
  rw [Program.leads_tryCatch]
  apply (process_leads still).mono
  rintro _ _ ⟨rfl, delivered⟩
  exact delivered

/-- The process has come to `program`, with the calls in front of `earlier`. -/
structure Acts (deployment : Deployment) (pid : Pid) (earlier : List Event)
    (state : State) (program : Async Result) (world : World) : Prop where
  running : ∃ process claim, state.processes pid =
    some (Process.proceed deployment process program claim) ∧
      process.severed = false
  store : state.store = world.1
  history : state.history = world.2 ++ earlier

/-- The system can let the process make its next call. -/
theorem Acts.call {earlier : List Event} {state : State} {request : Call}
    {next : request.Reply → Async Result} {rescue : AppError → Async Result}
    {world : World} (choice : Choice)
    (acts : Acts deployment pid earlier state (.call request next rescue)
      world) :
    ∃ after, step deployment state (.call pid choice) = some after ∧
      Acts deployment pid earlier after
        (Program.resume next rescue
          (answers deployment pid choice request world).1)
        (answers deployment pid choice request world).2 := by
  obtain ⟨process, claim, found, connected⟩ := acts.running
  obtain ⟨store, calls⟩ := world
  obtain rfl : state.store = store := acts.store
  let waiting := process.proceed deployment (.call request next rescue) claim
  have serves : waiting.connected request = true := by
    cases request <;> simp [waiting, Process.connected, Process.proceed,
      connected]
  refine ⟨state.perform deployment pid choice request
    (waiting.replied deployment next rescue), ?_, ?_, rfl, ?_⟩
  · simp only [step, found]
    exact if_pos serves
  · exact ⟨waiting, _, state.perform_self .., connected⟩
  · exact congrArg (_ :: ·) acts.history

end Undisturbed

end WebhookDelivery
