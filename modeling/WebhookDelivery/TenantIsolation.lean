import WebhookDelivery.Isolation
import WebhookDelivery.Fencing

/-!
# Tenant isolation of enqueue

A tenant whose requests are not entangled with those of another tenant gets
only its own jobs, and is answered as if it were alone.
-/

namespace WebhookDelivery

open Concurrency

/-- The requests started in a run. -/
def requests (actions : List Action) : List EnqueueInput :=
  actions.filterMap fun
    | .start _ (.enqueue input) => some input
    | _ => none

/-- No request of the tenant is entangled with a request of another one. -/
def Disentangled (tenant : String) (actions : List Action) : Prop :=
  ∀ input ∈ requests actions, ∀ other ∈ requests actions,
    input.tenant = tenant → other.tenant ≠ tenant →
      ∀ key ∈ JobService.requestKey input,
        ∀ otherKey ∈ JobService.requestKey other,
          ¬Entangled tenant key other.tenant otherKey ∧
            ¬Entangled other.tenant otherKey tenant key

/-- The slots of a tenant's requests. -/
def slotsOf (tenant : String) (actions : List Action) (slot : String) :
    Prop :=
  ∃ input ∈ requests actions,
    input.tenant = tenant ∧ slotName input = some slot

/-- The answer of a request that has returned a job. -/
def State.answer? (state : State) (pid : Pid) : Option (EnqueueInput × Job) :=
  match state.processes pid with
  | some ⟨.enqueue input, .returned (.ok (.enqueued job)), _, _, _⟩ =>
      some (input, job)
  | _ => none

/-- The webhook has been looked up as the tenant's, and nobody else has it. -/
def State.OwnsWebhook (state : State) (tenant : String)
    (webhookId : WebhookId) : Prop :=
  state.Vouched tenant webhookId ∧
    ∀ row, state.store.db.webhooks webhookId = some row →
      row.tenant = tenant

theorem State.returned_of_answer? {state : State} {pid : Pid}
    {input : EnqueueInput} {job : Job}
    (answered : state.answer? pid = some (input, job)) :
    ∃ process, state.processes pid = some process ∧
      process.role = .enqueue input ∧
        process.status = .returned (.ok (.enqueued job)) := by
  unfold State.answer? at answered
  split at answered
  next other answer claim quit severed found =>
    cases answered
    exact ⟨_, found, rfl, rfl⟩
  · cases answered

theorem requests_mem {pid : Pid} {input : EnqueueInput}
    {actions : List Action} (started : .start pid (.enqueue input) ∈ actions) :
    input ∈ requests actions :=
  List.mem_filterMap.mpr ⟨_, started, rfl⟩

/-- Requests that are not entangled do not share slots. -/
theorem separates_of_disentangled {tenant : String} {actions : List Action}
    (disentangled : Disentangled tenant actions) {action : Action}
    (member : action ∈ actions) :
    Separates tenant (slotsOf tenant actions) action := by
  cases action with
  | start pid role =>
      cases role with
      | enqueue other =>
          intro slot named
          constructor
          · rintro ⟨input, requested, rfl, named'⟩
            by_contra foreign
            obtain ⟨key, keyed, rfl⟩ := Option.map_eq_some_iff.mp named'
            obtain ⟨otherKey, otherKeyed, same⟩ :=
              Option.map_eq_some_iff.mp named
            obtain ⟨apart, apartToo⟩ := disentangled input requested other
              (requests_mem member) rfl foreign key keyed otherKey otherKeyed
            rcases (redisKey_eq_iff _ _ _ _).mp same with
              ⟨equal, _⟩ | continued | continues
            · exact foreign equal
            · exact apartToo continued
            · exact apart continues
          · intro own
            exact ⟨other, requests_mem member, own, named⟩
      | _ => trivial
  | _ => trivial

/-- Two requests share a slot when they carry the same tenant and key or are
entangled.  A tenant whose requests are not entangled with those of others is
given only jobs of its own, for webhooks of its own; and, when no id is given
to two of its rows, its requests have come as far, with the same answers, in
the run that leaves out everything the tenant takes no part in. -/
theorem tenants_isolated (deployment : Deployment) (tenant : String) :
    (∀ key other otherKey,
      Idempotency.redisKey tenant key =
          Idempotency.redisKey other otherKey ↔
        (tenant = other ∧ key = otherKey) ∨
          Entangled tenant key other otherKey ∨
            Entangled other otherKey tenant key) ∧
      ∀ actions final, Disentangled tenant actions →
        run (step deployment) State.initial actions = some final →
          (∀ pid input job, final.answer? pid = some (input, job) →
            input.tenant = tenant → job.tenant = tenant ∧
              final.OwnsWebhook tenant job.webhookId) ∧
          ((∀ transition ∈
              transitions (step deployment) State.initial actions,
                FreshIds tenant transition.before transition.action) →
            ∃ alone, run (step deployment) State.initial
                (purge (visibleTo tenant)
                  (transitions (step deployment) State.initial actions)) =
                some alone ∧
              ∀ pid process, final.processes pid = some process →
                process.role.isFor tenant →
                  ∃ other, alone.processes pid = some other ∧
                    other.role = process.role ∧
                      process.status.Alike other.status) := by
  refine ⟨fun key other otherKey => redisKey_eq_iff tenant key other otherKey,
    fun actions final disentangled runs => ?_⟩
  have separate : ∀ transition ∈
      transitions (step deployment) State.initial actions,
        Separates tenant (slotsOf tenant actions) transition.action :=
    fun _ member =>
      separates_of_disentangled disentangled (action_mem_of_transitions member)
  constructor
  · intro pid input job answered own
    have invariant : TenantInvariant tenant (slotsOf tenant actions) final :=
      Reachable.invariant _ .initial
        (fun _ _ _ invariant separates taken =>
          invariant.step separates taken)
        (@Reachable.of_run _ _ _ _ _
          (fun _ action => Separates tenant (slotsOf tenant actions) action)
          _ runs separate)
    obtain ⟨process, found, role, returned⟩ :=
      State.returned_of_answer? answered
    have hands := invariant.hands_of_returned found role own returned
    obtain ⟨webhook, looked, theirs⟩ := hands.vouched
    refine ⟨hands.theirs, hands.vouched, fun row stored => ?_⟩
    rw [(invariant.looked looked).2 row stored, theirs]
  · intro fresh
    obtain ⟨alone, runsAlone, shows⟩ := State.Shows.unwinds.run .initial runs
      fun transition member =>
        ⟨separate transition member, fresh transition member⟩
    exact ⟨alone, runsAlone, fun pid process found theirs =>
      shows.own found theirs⟩

/-! ## Two tenants with the same key -/

def globexWebhook : WebhookRow where
  id := 2
  tenant := "globex"
  url := "https://globex.test/hook"
  secret := "s3cret"
  isActive := true

def globexEvent : EnqueueInput where
  tenant := "globex"
  webhookId := 2
  eventType := "order.created"
  payload := "\x7b\x7d"
  idempotencyKey := some "order-7"

/-- Two tenants send an event under one key, and one of them sends it again
after a worker has claimed its job. -/
def sameKey : List Action :=
  [.registerWebhook exampleWebhook, .registerWebhook globexWebhook,
    .start 0 (.enqueue { exampleEvent with idempotencyKey := some "order-7" }),
    .start 1 (.enqueue globexEvent)] ++
    calls 0 2 ++ calls 1 2 ++ [.call 1 { uuid := 3 }, .call 0 { uuid := 4 }] ++
    calls 0 3 ++ calls 1 3 ++ .start 2 .worker :: calls 2 9 ++
    .start 3 (.enqueue { exampleEvent with idempotencyKey := some "order-7" }) ::
    calls 3 4

theorem tenants_isolated_sameKey :
    ∃ final alone,
      run (step {}) State.initial sameKey = some final ∧
        run (step {}) State.initial
            (purge (visibleTo "acme")
              (transitions (step {}) State.initial sameKey)) = some alone ∧
          (∀ pid input job, final.answer? pid = some (input, job) →
            input.tenant = "acme" → job.tenant = "acme" ∧
              final.OwnsWebhook "acme" job.webhookId) ∧
          ∀ pid process, final.processes pid = some process →
            process.role.isFor "acme" →
              ∃ other, alone.processes pid = some other ∧
                other.role = process.role ∧
                  process.status.Alike other.status := by
  have disentangled : Disentangled "acme" sameKey := by
    have distinct : ∀ input ∈ requests sameKey, ∀ other ∈ requests sameKey,
        input.tenant = "acme" → other.tenant ≠ "acme" →
          ∀ key ∈ JobService.requestKey input,
            ∀ otherKey ∈ JobService.requestKey other,
              Idempotency.redisKey "acme" key ≠
                Idempotency.redisKey other.tenant otherKey := by
      decide +kernel
    intro input member other memberToo own foreign key keyed otherKey
      otherKeyed
    have different := distinct input member other memberToo own foreign key
      keyed otherKey otherKeyed
    exact ⟨fun continued => different
        ((redisKey_eq_iff _ _ _ _).mpr (.inr (.inl continued))),
      fun continues => different
        ((redisKey_eq_iff _ _ _ _).mpr (.inr (.inr continues)))⟩
  have runs : (run (step {}) State.initial sameKey).isSome := by
    decide +kernel
  obtain ⟨final, runs⟩ := Option.isSome_iff_exists.mp runs
  obtain ⟨owned, isolated⟩ :=
    (tenants_isolated {} "acme").2 sameKey final disentangled runs
  obtain ⟨alone, runsAlone, alike⟩ := isolated (by decide +kernel)
  exact ⟨final, alone, runs, runsAlone, owned, alike⟩

/-! ## Two requests that are entangled -/

/-- The request of one tenant has the slot of another tenant's request. -/
def entangledRequests : List Action :=
  [.registerWebhook { exampleWebhook with tenant := "a" },
    .registerWebhook { globexWebhook with tenant := "a:b" },
    .start 0 (.enqueue { exampleEvent with
      tenant := "a", idempotencyKey := some "b:c" })] ++
    calls 0 2 ++ [.call 0 { uuid := 3 }] ++ calls 0 3 ++
    .start 1 (.enqueue { globexEvent with
      tenant := "a:b", idempotencyKey := some "c" }) :: calls 1 4

/-- The second tenant is given the job of the first one. -/
theorem job_of_another_tenant :
    ¬∀ actions pid input job,
      (run (step {}) State.initial actions).bind (State.answer? · pid) =
        some (input, job) → job.tenant = input.tenant := by
  intro isolated
  have answered : ((run (step {}) State.initial entangledRequests).bind
      (State.answer? · 1)).map (fun answer =>
        (answer.1.tenant, answer.2.tenant)) = some ("a:b", "a") := by
    decide +kernel
  obtain ⟨⟨input, job⟩, given, tenants⟩ := Option.map_eq_some_iff.mp answered
  have same := isolated entangledRequests 1 input job given
  obtain ⟨asks, gets⟩ := Prod.mk.inj tenants
  rw [asks, gets] at same
  exact absurd same (by decide)

end WebhookDelivery
