import WebhookDelivery.Slots
import WebhookDelivery.RowSteps

/-!
# Whose slot, whose job

The name of a slot joins tenant and key with a colon, which tenants and keys
may contain themselves.  Requests of two tenants share a slot when one of the
names continues the other across the colon; where no request of another tenant
does that, the slots of a tenant lead to jobs of that tenant alone.
-/

namespace WebhookDelivery

open Concurrency

/-! ## Slot names -/

/-- The second tenant continues the first, by as much as the first key has
before the second. -/
def Entangled (tenant key other otherKey : String) : Prop :=
  ∃ middle, other = tenant ++ ":" ++ middle ∧
    key = middle ++ ":" ++ otherKey

theorem redisKey_toList (tenant key : String) :
    (Idempotency.redisKey tenant key).toList =
      "idem:".toList ++ (tenant.toList ++ ':' :: key.toList) := by
  simp [Idempotency.redisKey, String.toList_append]

/-- Two lists joined by the same letter. -/
private theorem joined_eq_iff {Letter : Type} (joint : Letter)
    (first second third fourth : List Letter) :
    first ++ joint :: second = third ++ joint :: fourth ↔
      (first = third ∧ second = fourth) ∨
        (∃ middle, third = first ++ joint :: middle ∧
          second = middle ++ joint :: fourth) ∨
        ∃ middle, first = third ++ joint :: middle ∧
          fourth = middle ++ joint :: second := by
  constructor
  · intro same
    rcases List.append_eq_append_iff.mp same with
      ⟨more, third, rest⟩ | ⟨more, first, rest⟩
    · cases more with
      | nil =>
          rw [List.append_nil] at third
          exact .inl ⟨third.symm, (List.cons.inj rest).2⟩
      | cons letter middle =>
          obtain ⟨rfl, tail⟩ := List.cons.inj rest
          exact .inr (.inl ⟨middle, third, tail⟩)
    · cases more with
      | nil =>
          rw [List.append_nil] at first
          exact .inl ⟨first, (List.cons.inj rest).2.symm⟩
      | cons letter middle =>
          obtain ⟨rfl, tail⟩ := List.cons.inj rest
          exact .inr (.inr ⟨middle, first, tail⟩)
  · rintro (⟨rfl, rfl⟩ | ⟨middle, rfl, rfl⟩ | ⟨middle, rfl, rfl⟩)
    · rfl
    · simp
    · simp

private theorem entangled_iff (tenant key other otherKey : String) :
    Entangled tenant key other otherKey ↔
      ∃ middle, other.toList = tenant.toList ++ ':' :: middle ∧
        key.toList = middle ++ ':' :: otherKey.toList := by
  constructor
  · rintro ⟨middle, rfl, rfl⟩
    exact ⟨middle.toList, by simp [String.toList_append],
      by simp [String.toList_append]⟩
  · rintro ⟨middle, continues, begins⟩
    refine ⟨String.ofList middle, ?_, ?_⟩
    · rw [← String.toList_inj, continues]
      simp [String.toList_append]
    · rw [← String.toList_inj, begins]
      simp [String.toList_append]

/-- Two requests share a slot when they carry the same tenant and key, or
different ones that are entangled. -/
theorem redisKey_eq_iff (tenant key other otherKey : String) :
    Idempotency.redisKey tenant key = Idempotency.redisKey other otherKey ↔
      (tenant = other ∧ key = otherKey) ∨
        Entangled tenant key other otherKey ∨
          Entangled other otherKey tenant key := by
  rw [← String.toList_inj, redisKey_toList, redisKey_toList,
    List.append_right_inj, joined_eq_iff, String.toList_inj, String.toList_inj,
    entangled_iff, entangled_iff]

/-! ## Rows -/

/-- A row without the columns that deliveries and replays write. -/
def JobRow.origin (row : JobRow) : JobRow :=
  { row with
    state := .queued
    attempts := 0
    runAt := 0
    lastError := none
    updatedAt := 0 }

/-- A job without the fields that deliveries and replays change. -/
def Job.origin (job : Job) : Job :=
  { job with
    state := .queued
    attempts := 0
    runAt := 0
    lastError := none }

@[simp]
theorem StateUpdate.apply_origin (update : StateUpdate) (now : Int)
    (row : JobRow) : (update.apply now row).origin = row.origin :=
  rfl

@[simp]
theorem JobRow.reset_origin (now : Int) (row : JobRow) :
    (row.reset now).origin = row.origin :=
  rfl

theorem JobRow.tenant_of_origin {row other : JobRow}
    (same : row.origin = other.origin) : row.tenant = other.tenant := by
  have tenants := congrArg JobRow.tenant same
  exact tenants

theorem JobRow.webhookId_of_origin {row other : JobRow}
    (same : row.origin = other.origin) : row.webhookId = other.webhookId := by
  have webhooks := congrArg JobRow.webhookId same
  exact webhooks

variable {deployment : Deployment} {before after : State} {action : Action}

/-- A row has been there before the step, or it is inserted in the step under
a new id. -/
theorem origin_of_step (taken : step deployment before action = some after)
    {jobId : JobId} {row : JobRow}
    (found : after.store.db.jobs jobId = some row) :
    (∃ old, before.store.db.jobs jobId = some old ∧
        old.origin = row.origin) ∨
      jobId ∉ before.store.db.issued ∧ jobId ∈ after.store.db.issued ∧
        ∃ pid input now, action.performer? = some pid ∧
          before.pending? pid = some (.insertJob input) ∧ ∃ payload,
            row = input.newRow deployment.maxAttempts jobId now payload := by
  cases steps_of_step taken with
  | @performed _ pid choice process call next rescue resumed was running
      connected resumes =>
      rw [State.perform_store] at found
      rcases exec_jobs_cases deployment choice call before.store jobId with
        kept | ⟨update, old, _, _, stored, _, now⟩ | ⟨old, _, stored, now⟩ |
          ⟨input, rfl, unissued, issued, payload, _, now⟩
      · exact .inl ⟨row, kept ▸ found, rfl⟩
      · rw [now] at found
        cases found
        exact .inl ⟨old, stored, rfl⟩
      · rw [now] at found
        cases found
        exact .inl ⟨old, stored, rfl⟩
      · rw [now] at found
        cases found
        exact .inr ⟨unissued, issued, pid, input, choice.now,
          resumes.performer?.1, State.pending?_of_running was running,
          payload, rfl⟩
  | deleted =>
      exact .inl ⟨row, (Option.filter_eq_some_iff.mp found).1, rfl⟩
  | _ => exact .inl ⟨row, found, rfl⟩

/-- A webhook has been there before the step, or it is registered in the step
under a new id. -/
theorem webhook_of_step (taken : step deployment before action = some after)
    {webhookId : WebhookId} {row : WebhookRow}
    (found : after.store.db.webhooks webhookId = some row) :
    before.store.db.webhooks webhookId = some row ∨
      webhookId ∉ before.store.db.issued ∧
        webhookId ∈ after.store.db.issued := by
  cases steps_of_step taken with
  | performed =>
      rw [State.perform_store, exec_webhooks] at found
      exact .inl found
  | @registered new unused =>
      by_cases same : webhookId = new.id
      · subst same
        exact .inr ⟨unused, List.mem_cons_self⟩
      · exact .inl ((Function.update_of_ne same ..).symm.trans found)
  | @deleted gone =>
      by_cases same : webhookId = gone
      · subst same
        cases (Function.update_self ..).symm.trans found
      · exact .inl ((Function.update_of_ne same ..).symm.trans found)
  | _ => exact .inl found

/-- A process has its role from before, or it starts in the step. -/
theorem role_of_started (taken : step deployment before action = some after)
    {pid : Pid} {role : Role} (known : after.role? pid = some role) :
    before.role? pid = some role ∨ action = .start pid role := by
  cases was : before.role? pid with
  | some old =>
      rw [role_of_step taken was] at known
      exact .inl known
  | none =>
      have unused : before.processes pid = none :=
        Option.map_eq_none_iff.mp was
      by_cases other : action.actor? = some pid
      · cases steps_of_step taken with
        | @start starter new =>
            cases other
            rw [State.role?, State.setProcess_self] at known
            cases known
            exact .inr (by rw [Process.spawn_role])
        | @performed _ actor _ _ _ _ _ _ found _ _ resumes =>
            rw [resumes.performer?.2] at other
            cases other
            cases unused.symm.trans found
        | failed found =>
            cases other
            cases unused.symm.trans found
        | crashed found =>
            cases other
            cases unused.symm.trans found
        | _ => cases other
      · rw [role_of_other taken other, was] at known
        cases known

/-- What has been done has been done before the step or is done in it. -/
theorem did_history_of_step {Value : Type} {what : Event → Option Value}
    {value : Value} (taken : step deployment before action = some after)
    (done : did after.history what value) :
    did before.history what value ∨ ∃ pid choice call,
      action.performer? = some pid ∧ before.pending? pid = some call ∧
        after.store = (exec deployment choice call before.store).2 ∧
        what ⟨pid, call, (exec deployment choice call before.store).1⟩ =
          some value := by
  obtain ⟨pid, done⟩ := did_history_iff.mp done
  rcases did_of_step taken done with earlier | ⟨choice, call, now⟩
  · exact .inl (did_history_iff.mpr ⟨pid, earlier⟩)
  · exact .inr ⟨pid, choice, call, now⟩

/-! ## Whose jobs -/

/-- The webhook has been looked up under this id, and it was the tenant's. -/
def State.Vouched (state : State) (tenant : String) (webhookId : WebhookId) :
    Prop :=
  ∃ webhook, did state.history Event.webhook? (webhookId, webhook) ∧
    webhook.tenant = tenant

/-- A job that is the tenant's own, by its id: nobody else can come to have a
row under it. -/
def State.Belongs (state : State) (tenant : String) (jobId : JobId) : Prop :=
  jobId ∈ state.store.db.issued ∧
    ∀ row, state.store.db.jobs jobId = some row → row.tenant = tenant

/-- A job that may be handed to the tenant. -/
structure State.Hands (state : State) (tenant : String) (job : Job) :
    Prop where
  belongs : state.Belongs tenant job.id
  theirs : job.tenant = tenant
  vouched : state.Vouched tenant job.webhookId

theorem State.Vouched.step {tenant : String} {webhookId : WebhookId}
    (vouched : before.Vouched tenant webhookId)
    (taken : step deployment before action = some after) :
    after.Vouched tenant webhookId := by
  obtain ⟨webhook, done, theirs⟩ := vouched
  exact ⟨webhook, did_history_mono taken done, theirs⟩

theorem State.Belongs.step {tenant : String} {jobId : JobId}
    (belongs : before.Belongs tenant jobId)
    (taken : step deployment before action = some after) :
    after.Belongs tenant jobId := by
  refine ⟨issued_of_step taken belongs.1, fun row found => ?_⟩
  rcases origin_of_step taken found with ⟨old, was, same⟩ | ⟨unissued, _⟩
  · rw [← JobRow.tenant_of_origin same]
    exact belongs.2 old was
  · exact absurd belongs.1 unissued

theorem State.Hands.step {tenant : String} {job : Job}
    (hands : before.Hands tenant job)
    (taken : WebhookDelivery.step deployment before action = some after) :
    after.Hands tenant job where
  belongs := hands.belongs.step taken
  theirs := hands.theirs
  vouched := hands.vouched.step taken

/-- A request of the tenant uses one of the slots, and nobody else's does. -/
def Separates (tenant : String) (slots : String → Prop) : Action → Prop
  | .start _ (.enqueue input) =>
      ∀ slot, slotName input = some slot →
        (slots slot ↔ input.tenant = tenant)
  | _ => True

/-- The slots of a tenant lead to jobs of the tenant, and every job comes with
a webhook of its tenant. -/
structure TenantInvariant (tenant : String) (slots : String → Prop)
    (state : State) : Prop where
  trace : TraceInvariant False state
  separate : ∀ {pid input slot}, state.role? pid = some (.enqueue input) →
    slotName input = some slot → (slots slot ↔ input.tenant = tenant)
  recorded : ∀ {jobId row}, state.store.db.jobs jobId = some row →
    jobId ∈ state.store.db.issued
  registered : ∀ {webhookId row},
    state.store.db.webhooks webhookId = some row →
      webhookId ∈ state.store.db.issued
  looked : ∀ {webhookId webhook},
    did state.history Event.webhook? (webhookId, webhook) →
      webhookId ∈ state.store.db.issued ∧
        ∀ row, state.store.db.webhooks webhookId = some row →
          row.tenant = webhook.tenant
  vouched : ∀ {jobId row}, state.store.db.jobs jobId = some row →
    state.Vouched row.tenant row.webhookId
  resolved : ∀ {slot jobId}, slots slot →
    state.slot slot = some (.job jobId) ∨
      did state.history Event.slotRead? (slot, jobId) →
        state.Belongs tenant jobId
  told : ∀ {pid input job}, state.role? pid = some (.enqueue input) →
    input.tenant = tenant → did (state.own pid) Event.inserted? job ∨
      did (state.own pid) Event.found? job → state.Hands tenant job

namespace Event

variable {pid : Pid} {choice : Choice} {call : Call} {store : Store}

theorem found?_exec {job : Job}
    (finds : found? ⟨pid, call, (exec deployment choice call store).1⟩ =
      some job) :
    ∃ row, call = .findJob row.id ∧ store.db.jobs row.id = some row ∧
      job = row.toJob := by
  cases call with
  | findJob jobId =>
      cases stored : store.db.jobs jobId with
      | none =>
          simp [found?, exec, Postgres.findJob, stored] at finds
      | some row =>
          have same : row.id = jobId := store.db.keyed stored
          subst same
          simp only [found?, exec, Postgres.findJob, stored, Option.map_some,
            Option.some.injEq] at finds
          exact ⟨row, rfl, stored, finds.symm⟩
  | _ => cases finds

theorem webhook?_exec {webhookId : WebhookId} {webhook : Webhook}
    (finds : webhook? ⟨pid, call, (exec deployment choice call store).1⟩ =
      some (webhookId, webhook)) :
    call = .findWebhook webhookId ∧
      ∃ row, store.db.webhooks webhookId = some row ∧
        webhook = row.toWebhook := by
  cases call with
  | findWebhook id =>
      cases stored : store.db.webhooks id with
      | none => simp [webhook?, exec, stored] at finds
      | some row =>
          simp only [webhook?, exec, stored, Option.map_some,
            Option.some.injEq, Prod.mk.injEq] at finds
          obtain ⟨rfl, same⟩ := finds
          exact ⟨rfl, row, stored, same.symm⟩
  | _ => cases finds

end Event

namespace TenantInvariant

variable {tenant : String} {slots : String → Prop}

theorem initial : TenantInvariant tenant slots State.initial where
  trace := .initial
  separate known := by cases known
  recorded found := by cases found
  registered found := by cases found
  looked done := (did_nil _ _ done).elim
  vouched found := by cases found
  resolved _ value := by
    rcases value with resolved | done
    · cases resolved
    · exact (did_nil _ _ done).elim
  told known := by cases known

/-- Only a request inserts a row, for its own tenant and a webhook that it has
found to be its tenant's. -/
theorem inserts (invariant : TenantInvariant tenant slots before) {pid : Pid}
    {input : JobInput} (pending : before.pending? pid = some (.insertJob input)) :
    ∃ request, before.role? pid = some (.enqueue request) ∧
      input = request.toJobInput ∧
        before.Vouched input.tenant input.webhookId := by
  obtain ⟨role, known, allows⟩ := invariant.trace.allows pending
  cases role with
  | enqueue request =>
      obtain ⟨-, rfl, ⟨webhook, done, theirs⟩, -⟩ := allows
      exact ⟨request, known, rfl, webhook,
        did_history_iff.mpr ⟨pid, done⟩, theirs⟩
  | worker => cases allows
  | replay limit => cases allows

private theorem separate_of_step
    (invariant : TenantInvariant tenant slots before)
    (separates : Separates tenant slots action)
    (taken : step deployment before action = some after) {pid : Pid}
    {input : EnqueueInput} {slot : String}
    (known : after.role? pid = some (.enqueue input))
    (named : slotName input = some slot) :
    slots slot ↔ input.tenant = tenant := by
  rcases role_of_started taken known with was | rfl
  · exact invariant.separate was named
  · exact separates slot named

private theorem looked_of_step
    (invariant : TenantInvariant tenant slots before)
    (taken : step deployment before action = some after)
    {webhookId : WebhookId} {webhook : Webhook}
    (done : did after.history Event.webhook? (webhookId, webhook)) :
    webhookId ∈ after.store.db.issued ∧
      ∀ row, after.store.db.webhooks webhookId = some row →
        row.tenant = webhook.tenant := by
  rcases did_history_of_step taken done with
    earlier | ⟨pid, choice, call, _, _, store, now⟩
  · obtain ⟨issued, same⟩ := invariant.looked earlier
    refine ⟨issued_of_step taken issued, fun row found => ?_⟩
    rcases webhook_of_step taken found with was | ⟨unissued, _⟩
    · exact same row was
    · exact absurd issued unissued
  · obtain ⟨rfl, row, stored, rfl⟩ := Event.webhook?_exec now
    have kept : after.store = before.store := store
    rw [kept]
    refine ⟨invariant.registered stored, fun other found => ?_⟩
    cases found.symm.trans stored
    rfl

private theorem vouched_of_step
    (invariant : TenantInvariant tenant slots before)
    (taken : step deployment before action = some after) {jobId : JobId}
    {row : JobRow} (found : after.store.db.jobs jobId = some row) :
    after.Vouched row.tenant row.webhookId := by
  rcases origin_of_step taken found with ⟨old, was, same⟩ |
    ⟨_, _, pid, input, now, _, pending, payload, rfl⟩
  · rw [← JobRow.tenant_of_origin same, ← JobRow.webhookId_of_origin same]
    exact (invariant.vouched was).step taken
  · obtain ⟨request, _, _, vouched⟩ := invariant.inserts pending
    exact State.Vouched.step vouched taken

private theorem resolved_of_step
    (invariant : TenantInvariant tenant slots before)
    (taken : step deployment before action = some after) {slot : String}
    {jobId : JobId} (theirs : slots slot)
    (value : after.slot slot = some (.job jobId) ∨
      did after.history Event.slotRead? (slot, jobId)) :
    after.Belongs tenant jobId := by
  have belongs : before.Belongs tenant jobId := by
    rcases value with value | done
    · rcases WebhookDelivery.resolved_of_step taken value with
        was | ⟨pid, _, pending⟩
      · exact invariant.resolved theirs (.inl was)
      · obtain ⟨role, known, allows⟩ := invariant.trace.allows pending
        cases role with
        | enqueue input =>
            obtain ⟨-, named, -, ⟨job, inserted, rfl⟩, -⟩ := allows
            have own := (invariant.separate known named).mp theirs
            exact (invariant.told known own (.inl inserted)).belongs
        | worker => cases allows
        | replay limit => cases allows
    · rcases did_history_of_step taken done with
        earlier | ⟨_, _, _, _, _, _, now⟩
      · exact invariant.resolved theirs (.inr earlier)
      · exact invariant.resolved theirs (.inl (Event.slotRead?_exec now))
  exact belongs.step taken

/-- A job that a request inserts is its tenant's. -/
private theorem hands_of_inserted
    (invariant : TenantInvariant tenant slots before)
    (taken : step deployment before action = some after) {pid : Pid}
    {request : EnqueueInput} {choice : Choice} {call : Call} {job : Job}
    (known : before.role? pid = some (.enqueue request))
    (own : request.tenant = tenant)
    (pending : before.pending? pid = some call)
    (store : after.store = (exec deployment choice call before.store).2)
    (inserted : Event.inserted?
      ⟨pid, call, (exec deployment choice call before.store).1⟩ =
        some job) : after.Hands tenant job := by
  obtain ⟨input, rfl, _, issued, payload, _, stored, made⟩ :=
    Event.inserted?_exec inserted
  obtain ⟨other, same, rfl, vouched⟩ := invariant.inserts pending
  cases known.symm.trans same
  subst own
  rw [← store] at issued stored
  have vouches := State.Vouched.step vouched taken
  refine ⟨⟨issued, fun row found => ?_⟩, by rw [made]; rfl, ?_⟩
  · cases stored.symm.trans found
    rfl
  · rw [made]
    exact vouches

/-- A job that a request finds through its slot is its tenant's. -/
private theorem hands_of_found
    (invariant : TenantInvariant tenant slots before)
    (taken : step deployment before action = some after) {pid : Pid}
    {request : EnqueueInput} {choice : Choice} {call : Call} {job : Job}
    (known : before.role? pid = some (.enqueue request))
    (own : request.tenant = tenant)
    (pending : before.pending? pid = some call)
    (found : Event.found?
      ⟨pid, call, (exec deployment choice call before.store).1⟩ =
        some job) : after.Hands tenant job := by
  obtain ⟨row, rfl, stored, rfl⟩ := Event.found?_exec found
  obtain ⟨role, same, allows⟩ := invariant.trace.allows pending
  cases known.symm.trans same
  obtain ⟨-, slot, named, read⟩ := allows
  have belongs := invariant.resolved
    ((invariant.separate known named).mpr own)
    (.inr (did_history_iff.mpr ⟨pid, read⟩))
  have theirs : row.tenant = tenant := belongs.2 row stored
  have vouched := (invariant.vouched stored).step taken
  rw [theirs] at vouched
  exact ⟨belongs.step taken, theirs, vouched⟩

private theorem told_of_step
    (invariant : TenantInvariant tenant slots before)
    (taken : step deployment before action = some after) {pid : Pid}
    {request : EnqueueInput} {job : Job}
    (known : after.role? pid = some (.enqueue request))
    (own : request.tenant = tenant)
    (done : did (after.own pid) Event.inserted? job ∨
      did (after.own pid) Event.found? job) : after.Hands tenant job := by
  have same : ∀ {role}, before.role? pid = some role →
      role = .enqueue request := by
    intro role was
    exact Option.some.inj ((role_of_step taken was).symm.trans known)
  rcases done with inserted | found
  · rcases did_of_step taken inserted with
      earlier | ⟨choice, call, _, pending, store, now⟩
    · obtain ⟨role, was⟩ := invariant.trace.role_of_did earlier
      cases same was
      exact (invariant.told was own (.inl earlier)).step taken
    · obtain ⟨role, was, _⟩ := invariant.trace.allows pending
      cases same was
      exact invariant.hands_of_inserted taken was own pending store now
  · rcases did_of_step taken found with
      earlier | ⟨choice, call, _, pending, _, now⟩
    · obtain ⟨role, was⟩ := invariant.trace.role_of_did earlier
      cases same was
      exact (invariant.told was own (.inr earlier)).step taken
    · obtain ⟨role, was, _⟩ := invariant.trace.allows pending
      cases same was
      exact invariant.hands_of_found taken was own pending now

theorem step (invariant : TenantInvariant tenant slots before)
    (separates : Separates tenant slots action)
    (taken : WebhookDelivery.step deployment before action = some after) :
    TenantInvariant tenant slots after where
  trace := invariant.trace.step False.elim taken
  separate := invariant.separate_of_step separates taken
  recorded found := by
    rcases issued_of_row taken found with now | ⟨old, was⟩
    · exact now
    · exact issued_of_step taken (invariant.recorded was)
  registered found := by
    rcases webhook_of_step taken found with was | ⟨_, now⟩
    · exact issued_of_step taken (invariant.registered was)
    · exact now
  looked := invariant.looked_of_step taken
  vouched := invariant.vouched_of_step taken
  resolved := invariant.resolved_of_step taken
  told := invariant.told_of_step taken

/-- A job returned to a request of the tenant is the tenant's. -/
theorem hands_of_returned {state : State}
    (invariant : TenantInvariant tenant slots state) {pid : Pid}
    {process : Process} {input : EnqueueInput} {job : Job}
    (found : state.processes pid = some process)
    (role : process.role = .enqueue input) (own : input.tenant = tenant)
    (returned : process.status = .returned (.ok (.enqueued job))) :
    state.Hands tenant job := by
  have known : state.role? pid = some (.enqueue input) := by
    rw [State.role?_of_found found, role]
  obtain ⟨other, same, answered⟩ := invariant.trace.returned found returned
  rcases answered with ⟨inserted, _⟩ | ⟨_, _, _, found⟩
  · exact invariant.told known own (.inl inserted)
  · exact invariant.told known own (.inr found)

end TenantInvariant

end WebhookDelivery
