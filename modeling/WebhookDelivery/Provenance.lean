import WebhookDelivery.Passes
import WebhookDelivery.Tenants
import WebhookDelivery.Fencing

/-!
# Where the contents of a request come from

A request is put together by a worker, from a job that an API process has
inserted and a webhook that somebody has registered, and between the three any
number of other steps are taken: updates of the row, replays, crashes, deletions.
None of them changes what is sent, to whom, or under which secret.
-/

namespace WebhookDelivery

open Concurrency

variable {deployment : Deployment} {actions : List Action}
  {before after state : State} {action : Action}

/-- The job has been inserted by a process, and later changes have left its
origin alone. -/
def Descends (state : State) (job : Job) : Prop :=
  ∃ pid input created, ⟨.insertJob input, .ok created⟩ ∈ state.log pid ∧
    created.origin = job.origin

theorem mem_log_iff {pid : Pid} {call : Call}
    {outcome : Except AppError call.Reply} :
    (⟨call, outcome⟩ : Entry) ∈ state.log pid ↔
      ⟨pid, call, outcome⟩ ∈ state.history := by
  simp only [State.log, State.own, List.mem_map, List.mem_filter,
    decide_eq_true_eq]
  constructor
  · rintro ⟨⟨other, made, result⟩, ⟨member, rfl⟩, same⟩
    cases same
    exact member
  · intro member
    exact ⟨_, ⟨member, rfl⟩, rfl⟩

theorem log_of_step (taken : step deployment before action = some after)
    (pid : Pid) : before.log pid <:+ after.log pid := by
  by_cases performs : action.performer? = some pid
  · obtain ⟨choice, call, _, _, log⟩ := log_of_performer taken performs
    rw [log]
    exact List.suffix_cons _ _
  · exact (log_of_other taken performs).symm ▸ List.suffix_refl _

theorem mem_log_of_step {pid : Pid} {entry : Entry}
    (taken : step deployment before action = some after)
    (member : entry ∈ before.log pid) : entry ∈ after.log pid :=
  (log_of_step taken pid).subset member

/-- A call in a log is there already, or the process performs it in the
step. -/
theorem mem_log_cases {pid : Pid} {entry : Entry}
    (taken : step deployment before action = some after)
    (member : entry ∈ after.log pid) :
    entry ∈ before.log pid ∨ ∃ choice,
      before.pending? pid = some entry.request ∧
        (exec deployment choice entry.request before.store).1 =
          entry.outcome ∧
        after.store = (exec deployment choice entry.request before.store).2 := by
  by_cases performs : action.performer? = some pid
  · obtain ⟨choice, call, pending, store, log⟩ :=
      log_of_performer taken performs
    rw [log, List.mem_cons] at member
    rcases member with rfl | earlier
    · exact .inr ⟨choice, pending, rfl, store⟩
    · exact .inl earlier
  · rw [log_of_other taken performs] at member
    exact .inl member

theorem Descends.mono {job : Job}
    (taken : step deployment before action = some after)
    (descends : Descends before job) : Descends after job := by
  obtain ⟨pid, input, row, member, same⟩ := descends
  exact ⟨pid, input, row, mem_log_of_step taken member, same⟩

/-- What deliveries and replays leave alone. -/
theorem Job.fixed_of_origin {job other : Job}
    (same : job.origin = other.origin) :
    job.id = other.id ∧ job.webhookId = other.webhookId ∧
      job.eventType = other.eventType ∧ job.payload = other.payload := by
  simp only [Job.origin, Job.mk.injEq] at same
  obtain ⟨id, _, webhookId, eventType, payload, _⟩ := same
  exact ⟨id, webhookId, eventType, payload⟩

theorem Job.origin_of_row {row other : JobRow}
    (same : row.origin = other.origin) :
    row.toJob.origin = other.toJob.origin :=
  congrArg JobRow.toJob same

/-- What a run knows about the rows it reads, in terms of the rows that were
registered and inserted.  The book keeps the registration of every webhook,
deleted ones included. -/
structure Provenance (deployment : Deployment) (actions : List Action)
    (book : WebhookId → Option WebhookRow) (state : State) : Prop where
  trace : TraceInvariant False state
  roles : ∀ {pid role}, state.role? pid = some role →
    .start pid role ∈ actions
  booked : ∀ {id row}, book id = some row →
    row.id = id ∧ .registerWebhook row ∈ actions ∧
      id ∈ state.store.db.issued
  webhooks : ∀ {id row}, state.store.db.webhooks id = some row →
    book id = some row
  webhookRead : ∀ {pid id webhook},
    ⟨.findWebhook id, .ok (some webhook)⟩ ∈ state.log pid →
      ∃ row, book id = some row ∧ row.toWebhook = webhook
  secretRead : ∀ {pid id secret},
    ⟨.findSecret id, .ok (some secret)⟩ ∈ state.log pid →
      ∃ row, book id = some row ∧ row.secret = secret
  jobs : ∀ {jobId row}, state.store.db.jobs jobId = some row →
    Descends state row.toJob
  jobRead : ∀ {pid id job},
    ⟨.findJob id, .ok (some job)⟩ ∈ state.log pid → Descends state job
  asked : ∀ {pid input outcome},
    ⟨.insertJob input, outcome⟩ ∈ state.log pid →
      ∃ request, state.role? pid = some (.enqueue request) ∧
        input = request.toJobInput
  inserted : ∀ {pid input job},
    ⟨.insertJob input, .ok job⟩ ∈ state.log pid →
      ∃ now payload, deployment.jsonb input.payload = some payload ∧
        job = (input.newRow deployment.maxAttempts job.id now payload).toJob

namespace Provenance

variable {book : WebhookId → Option WebhookRow}

theorem initial : Provenance deployment actions (fun _ => none)
    State.initial where
  trace := .initial
  roles known := by cases known
  booked entered := by cases entered
  webhooks found := by cases found
  webhookRead read := by cases read
  secretRead read := by cases read
  jobs found := by cases found
  jobRead read := by cases read
  asked made := by cases made
  inserted made := by cases made

/-- What is registered in a step is entered in the book. -/
def entered (book : WebhookId → Option WebhookRow) :
    Action → WebhookId → Option WebhookRow
  | .registerWebhook row => Function.update book row.id (some row)
  | _ => book

/-- An id is registered once. -/
theorem entered_of_booked
    (provenance : Provenance deployment actions book before)
    (taken : step deployment before action = some after) {id : WebhookId}
    {row : WebhookRow} (known : book id = some row) :
    entered book action id = some row := by
  cases action with
  | registerWebhook new =>
      cases steps_of_step taken with
      | performed _ _ _ resumes => cases resumes.performer?.1
      | registered unused =>
          have other : id ≠ new.id := by
            rintro rfl
            exact unused (provenance.booked known).2.2
          exact (Function.update_of_ne other ..).trans known
  | _ => exact known

theorem issued_of_step (taken : step deployment before action = some after)
    {id : Nat} (known : id ∈ before.store.db.issued) :
    id ∈ after.store.db.issued := by
  cases steps_of_step taken with
  | performed => exact exec_issued _ _ _ _ known
  | registered => exact List.mem_cons_of_mem _ known
  | start | failed | crashed | shutdown | promoted | reaped | ticked
  | deleted => exact known

private theorem booked_of_step
    (provenance : Provenance deployment actions book before)
    (member : action ∈ actions)
    (taken : step deployment before action = some after) {id : WebhookId}
    {row : WebhookRow} (known : entered book action id = some row) :
    row.id = id ∧ .registerWebhook row ∈ actions ∧
      id ∈ after.store.db.issued := by
  have old : book id = some row → row.id = id ∧
      .registerWebhook row ∈ actions ∧ id ∈ after.store.db.issued := by
    intro known
    obtain ⟨same, was, issued⟩ := provenance.booked known
    exact ⟨same, was, issued_of_step taken issued⟩
  cases action with
  | registerWebhook new =>
      by_cases same : id = new.id
      · subst same
        cases (Function.update_self ..).symm.trans known
        refine ⟨rfl, member, ?_⟩
        cases steps_of_step taken with
        | performed _ _ _ resumes => cases resumes.performer?.1
        | registered => exact List.mem_cons_self
      · exact old ((Function.update_of_ne same ..).symm.trans known)
  | _ => exact old known

private theorem webhooks_of_step
    (provenance : Provenance deployment actions book before)
    (taken : step deployment before action = some after) {id : WebhookId}
    {row : WebhookRow} (found : after.store.db.webhooks id = some row) :
    entered book action id = some row := by
  have stays : before.store.db.webhooks id = some row →
      entered book action id = some row := fun was =>
    provenance.entered_of_booked taken (provenance.webhooks was)
  cases steps_of_step taken with
  | performed =>
      rw [State.perform_store, exec_webhooks] at found
      exact stays found
  | @registered new unused =>
      by_cases same : id = new.id
      · subst same
        cases (Function.update_self ..).symm.trans found
        exact Function.update_self ..
      · exact stays ((Function.update_of_ne same ..).symm.trans found)
  | @deleted gone =>
      by_cases same : id = gone
      · subst same
        cases (Function.update_self ..).symm.trans found
      · exact stays ((Function.update_of_ne same ..).symm.trans found)
  | start | failed | crashed | shutdown | promoted | reaped | ticked =>
      exact stays found

private theorem webhookRead_of_step
    (provenance : Provenance deployment actions book before)
    (taken : step deployment before action = some after) {pid : Pid}
    {id : WebhookId} {webhook : Webhook}
    (read : ⟨.findWebhook id, .ok (some webhook)⟩ ∈ after.log pid) :
    ∃ row, entered book action id = some row ∧ row.toWebhook = webhook := by
  rcases mem_log_cases taken read with earlier | ⟨choice, _, told, _⟩
  · obtain ⟨row, known, told⟩ := provenance.webhookRead earlier
    exact ⟨row, provenance.entered_of_booked taken known, told⟩
  · obtain ⟨row, found, told⟩ :=
      Option.map_eq_some_iff.mp (Except.ok.inj told)
    exact ⟨row, provenance.entered_of_booked taken
      (provenance.webhooks found), told⟩

private theorem secretRead_of_step
    (provenance : Provenance deployment actions book before)
    (taken : step deployment before action = some after) {pid : Pid}
    {id : WebhookId} {secret : String}
    (read : ⟨.findSecret id, .ok (some secret)⟩ ∈ after.log pid) :
    ∃ row, entered book action id = some row ∧ row.secret = secret := by
  rcases mem_log_cases taken read with earlier | ⟨choice, _, told, _⟩
  · obtain ⟨row, known, told⟩ := provenance.secretRead earlier
    exact ⟨row, provenance.entered_of_booked taken known, told⟩
  · obtain ⟨row, found, told⟩ :=
      Option.map_eq_some_iff.mp (Except.ok.inj told)
    exact ⟨row, provenance.entered_of_booked taken
      (provenance.webhooks found), told⟩

/-- A row was there before the step, or its insertion enters the log. -/
private theorem jobs_of_step
    (provenance : Provenance deployment actions book before)
    (taken : step deployment before action = some after) {jobId : JobId}
    {row : JobRow} (found : after.store.db.jobs jobId = some row) :
    Descends after row.toJob := by
  rcases origin_of_step taken found with ⟨old, was, same⟩ |
    ⟨unissued, issued, pid, input, now, performs, pending, payload, new⟩
  · obtain ⟨creator, input, created, member, origin⟩ :=
      (provenance.jobs was).mono taken
    exact ⟨creator, input, created, member,
      origin.trans (Job.origin_of_row same)⟩
  · obtain ⟨choice, call, pendingToo, store, log⟩ :=
      log_of_performer taken performs
    rw [pending] at pendingToo
    cases pendingToo
    rw [store] at found issued
    have answered : (exec deployment choice (.insertJob input)
        before.store).1 = .ok row.toJob := by
      rcases before.store.db.insertJob_cases deployment.jsonb
        deployment.maxAttempts choice.uuid choice.now input with
        ⟨failure, raised⟩ | ⟨_, _, _, _, done⟩
      · simp only [exec, raised] at issued
        exact absurd issued unissued
      · simp only [exec, done] at found issued ⊢
        obtain rfl | known := List.mem_cons.mp issued
        · have stored := Option.some.inj
            (found.symm.trans (Function.update_self ..))
          rw [stored]
        · exact absurd known unissued
    refine ⟨pid, input, row.toJob, ?_, rfl⟩
    rw [log, answered]
    exact List.mem_cons_self

private theorem jobRead_of_step
    (provenance : Provenance deployment actions book before)
    (taken : step deployment before action = some after) {pid : Pid}
    {id : JobId} {job : Job}
    (read : ⟨.findJob id, .ok (some job)⟩ ∈ after.log pid) :
    Descends after job := by
  rcases mem_log_cases taken read with earlier | ⟨choice, _, told, _⟩
  · exact (provenance.jobRead earlier).mono taken
  · obtain ⟨row, found, rfl⟩ :=
      Option.map_eq_some_iff.mp (Except.ok.inj told)
    exact (provenance.jobs found).mono taken

private theorem asked_of_step
    (provenance : Provenance deployment actions book before)
    (taken : step deployment before action = some after) {pid : Pid}
    {input : JobInput} {outcome : Except AppError Job}
    (made : ⟨.insertJob input, outcome⟩ ∈ after.log pid) :
    ∃ request, after.role? pid = some (.enqueue request) ∧
      input = request.toJobInput := by
  rcases mem_log_cases taken made with earlier | ⟨choice, pending, _, _⟩
  · obtain ⟨request, known, same⟩ := provenance.asked earlier
    exact ⟨request, role_of_step taken known, same⟩
  · obtain ⟨role, known, allows⟩ := provenance.trace.allows pending
    cases role with
    | enqueue request =>
        exact ⟨request, role_of_step taken known, allows.2.1⟩
    | worker => cases allows
    | replay limit => exact allows.elim

private theorem inserted_of_step
    (provenance : Provenance deployment actions book before)
    (taken : step deployment before action = some after) {pid : Pid}
    {input : JobInput} {job : Job}
    (made : ⟨.insertJob input, .ok job⟩ ∈ after.log pid) :
    ∃ now payload, deployment.jsonb input.payload = some payload ∧
      job = (input.newRow deployment.maxAttempts job.id now
        payload).toJob := by
  rcases mem_log_cases taken made with earlier | ⟨choice, _, told, _⟩
  · exact provenance.inserted earlier
  · rcases before.store.db.insertJob_cases deployment.jsonb
      deployment.maxAttempts choice.uuid choice.now input with
      ⟨failure, raised⟩ | ⟨payload, kept, _, _, done⟩
    · simp only [exec, raised] at told
      cases told
    · simp only [exec, done] at told
      cases told
      exact ⟨choice.now, payload, kept, rfl⟩

theorem step (provenance : Provenance deployment actions book before)
    (member : action ∈ actions)
    (taken : WebhookDelivery.step deployment before action = some after) :
    Provenance deployment actions (entered book action) after where
  trace := provenance.trace.step False.elim taken
  roles known := by
    rcases role_of_started taken known with earlier | rfl
    · exact provenance.roles earlier
    · exact member
  booked := provenance.booked_of_step member taken
  webhooks := provenance.webhooks_of_step taken
  webhookRead := provenance.webhookRead_of_step taken
  secretRead := provenance.secretRead_of_step taken
  jobs := provenance.jobs_of_step taken
  jobRead := provenance.jobRead_of_step taken
  asked := provenance.asked_of_step taken
  inserted := provenance.inserted_of_step taken

theorem of_run {final : State}
    (runs : run (WebhookDelivery.step deployment) State.initial actions =
      some final) : ∃ book, Provenance deployment actions book final :=
  (Reachable.of_run runs fun _ member =>
    action_mem_of_transitions member).invariant
      (fun state => ∃ book, Provenance deployment actions book state)
      ⟨_, initial⟩ fun _ _ _ held member taken =>
        ⟨_, held.choose_spec.step member taken⟩

end Provenance

/-- The request is what was enqueued, for the webhook that was registered. -/
structure Faithful (deployment : Deployment) (input : EnqueueInput)
    (row : WebhookRow) (request : DeliveryRequest) : Prop where
  webhook : row.id = input.webhookId
  owner : row.tenant = input.tenant
  active : row.isActive = true
  url : request.url = row.url
  eventType : request.eventType = input.eventType
  body : deployment.jsonb input.payload = some request.body
  signature : row.secret ≠ "" ∧ request.signature = "v1=" ++
    DeliveryService.sign deployment row.secret request.timestamp request.body

/-- In every run, whatever fails and whatever happens to rows and webhooks on
the way: a call of `fetch` carries the event type of an event that an API
process was asked to enqueue and what its column keeps of the payload, under the
id its row was given, to the URL of an active webhook registered for the same
tenant, signed with the secret that this webhook was registered with. -/
theorem requests_carry_what_was_enqueued
    (runs : run (step deployment) State.initial actions = some after)
    {event : Event} (member : event ∈ after.history)
    {request : DeliveryRequest} (sends : event.call = .fetch request) :
    ∃ pid input job row, .start pid (.enqueue input) ∈ actions ∧
      .registerWebhook row ∈ actions ∧
      ⟨pid, .insertJob input.toJobInput, .ok job⟩ ∈ after.history ∧
      job.id = request.jobId ∧ Faithful deployment input row request := by
  obtain ⟨book, provenance⟩ := Provenance.of_run runs
  have kept := (PassInvariant.of_run runs).kept
  obtain ⟨pid, call, outcome⟩ := event
  cases sends
  obtain ⟨_, told, pass, cleared, rfl, earlier, rfl⟩ :=
    (kept pid).of_mem (mem_log_iff.mpr member)
  have hears : ∀ entry ∈ pass.calls deployment, entry ∈ after.log pid :=
    fun entry asked => told (List.mem_append_left _ asked)
  obtain ⟨creator, _, created, insertion, origin⟩ :=
    provenance.jobRead (hears ⟨.findJob pass.jobId, .ok (some pass.job)⟩
      (by simp [Pass.calls]))
  obtain ⟨input, role, rfl⟩ := provenance.asked insertion
  obtain ⟨now, payload, keeps, new⟩ := provenance.inserted insertion
  -- The webhook that is read for the request, for its secret and when the job
  -- was let in has one registration.
  obtain ⟨row, booked, read⟩ := provenance.webhookRead
    (hears ⟨.findWebhook pass.job.webhookId, .ok (some pass.webhook)⟩
      (by simp [Pass.calls, Pass.preparing]))
  obtain ⟨rowToo, bookedToo, secret⟩ := provenance.secretRead
    (hears ⟨.findSecret pass.job.webhookId, .ok (some pass.secret)⟩
      (by simp [Pass.calls, Pass.preparing]))
  cases booked.symm.trans bookedToo
  obtain ⟨_, known, webhook, found, owner, active⟩ :=
    (kept creator).of_mem insertion
  obtain ⟨rowThen, bookedThen, readThen⟩ := provenance.webhookRead (known found)
  obtain ⟨jobId, webhookId, eventType, column⟩ := Job.fixed_of_origin origin
  have addressed : pass.job.webhookId = input.webhookId :=
    webhookId.symm.trans (congrArg Job.webhookId new)
  have body : payload = pass.job.payload :=
    (congrArg Job.payload new).symm.trans column
  rw [addressed] at booked
  cases booked.symm.trans bookedThen
  obtain ⟨id, registered, _⟩ := provenance.booked booked
  refine ⟨creator, input, created, row, provenance.roles role, registered,
    mem_log_iff.mp insertion, jobId, ?_⟩
  exact
    { webhook := id
      owner := by rw [← owner, ← readThen]; rfl
      active := by rw [← active, ← readThen]; rfl
      url := by
        show pass.webhook.url = row.url
        rw [← read]
        rfl
      eventType := eventType.symm.trans (congrArg Job.eventType new)
      body := keeps.trans (congrArg some body)
      signature := by
        rw [secret]
        exact ⟨cleared.signed, rfl⟩ }

/-- The webhook is deleted while the request for it is out. -/
def deletedWhileOut : List Action :=
  enqueueOne ++ deliverOnce 1 200 0 ++ [.deleteWebhook 1]

theorem requests_carry_what_was_enqueued_deletedWhileOut :
    ∃ after request pid input job row,
      run (step {}) State.initial deletedWhileOut = some after ∧
        .start pid (.enqueue input) ∈ deletedWhileOut ∧
        .registerWebhook row ∈ deletedWhileOut ∧
        ⟨pid, .insertJob input.toJobInput, .ok job⟩ ∈ after.history ∧
        job.id = request.jobId ∧ Faithful {} input row request := by
  have evaluated : (run (step {}) State.initial deletedWhileOut).map
      (fun state => (state.history.head?.bind Event.request?).isSome) =
        some true := by decide +kernel
  obtain ⟨after, runs, sends⟩ := Option.map_eq_some_iff.mp evaluated
  obtain ⟨request, sends⟩ := Option.isSome_iff_exists.mp sends
  obtain ⟨event, latest, asks⟩ := Option.bind_eq_some_iff.mp sends
  have carries := requests_carry_what_was_enqueued runs
    (List.mem_of_head? latest) (Event.call_of_request? asks)
  obtain ⟨pid, input, job, row, facts⟩ := carries
  exact ⟨after, request, pid, input, job, row, runs, facts⟩

end WebhookDelivery
