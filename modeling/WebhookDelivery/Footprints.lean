import WebhookDelivery.JobService

/-!
# Which calls the helper functions make

Most calls made on behalf of a job touch neither the queue structures nor the
job rows.  This file names that class and shows that the preflight gates, the
webhook lookups and the delivery itself stay inside it.
-/

namespace WebhookDelivery

open Concurrency

namespace Call

/-- The calls of a delivery of one job: the audit trail and the network. -/
def delivers (jobId : JobId) : Call → Bool
  | .now | .responseText => true
  | .fetch request => request.jobId = jobId
  | .nextAttemptNumber id => id = jobId
  | .insertAttempt record => record.jobId = jobId
  | _ => false

/-- The calls of a delivery up to its record. -/
def sends (jobId : JobId) : Call → Bool
  | .insertAttempt _ => false
  | call => call.delivers jobId

/-- The calls of the gates, the breaker's bookkeeping and the lookups. -/
def gates : Call → Bool
  | .now | .random | .checkCircuit _ _ _ | .recordSuccess _
  | .recordFailure _ _ _ | .take _ _ _ _ _ | .findWebhook _
  | .findSecret _ => true
  | _ => false

/-- The calls on idempotency slots. -/
def slots : Call → Bool
  | .setSlotNx _ | .getSlot _ | .setSlot _ _ | .delSlot _ => true
  | _ => false

/-- The call that reads a job. -/
def reads : Call → Bool
  | .findJob _ => true
  | _ => false

/-- The calls of a worker. -/
def works (call : Call) : Bool :=
  match call with
  | .brpoplpush | .zaddLease _ _ | .ack _ | .retryLater _ _ | .deadLetter _
  | .findJob _ | .updateState _ | .fetch _ | .responseText
  | .nextAttemptNumber _ | .insertAttempt _ => true
  | call => call.gates

/-- The calls of `reserve`. -/
def reserves : Call → Bool
  | .brpoplpush | .now | .zaddLease _ _ => true
  | _ => false

/-- The calls that put a job off or follow its delivery. -/
def settles (call : Call) : Bool :=
  match call with
  | .updateState _ | .ack _ | .retryLater _ _ | .deadLetter _ => true
  | call => call.gates

/-- The calls of `replay`. -/
def replays : Call → Bool
  | .popDlq | .resetForReplay _ | .push _ => true
  | _ => false

/-- The calls of the `try` block of `enqueue` and of its handler. -/
def creates (call : Call) : Bool :=
  match call with
  | .now | .insertJob _ | .push _ | .pushDelayed _ _ => true
  | call => call.slots

/-- The calls of `enqueue`. -/
def enqueues (call : Call) : Bool :=
  match call with
  | .insertJob _ | .push _ | .pushDelayed _ _ | .findJob _ => true
  | call => call.gates || call.slots

/-- The calls that leave the queue structures and the job rows alone. -/
def inert (call : Call) : Bool :=
  match call with
  | .findJob _ | .setSlotNx _ | .getSlot _ | .setSlot _ _ | .delSlot _
  | .fetch _ | .responseText | .nextAttemptNumber _ | .insertAttempt _ =>
      true
  | call => call.gates

theorem inert_of_gates {call : Call} (gates : call.gates) : call.inert := by
  cases call <;> simp_all [Call.gates, Call.inert]

theorem inert_of_slots {call : Call} (slots : call.slots) : call.inert := by
  cases call <;> simp_all [Call.slots, Call.inert]

theorem inert_of_delivers {jobId : JobId} {call : Call}
    (delivers : call.delivers jobId) : call.inert := by
  cases call <;> simp_all [Call.delivers, Call.gates, Call.inert]

theorem delivers_of_sends {jobId : JobId} {call : Call}
    (sends : call.sends jobId) : call.delivers jobId := by
  cases call <;> first | exact sends | cases sends

theorem works_of_gates {call : Call} (gates : call.gates) : call.works := by
  cases call <;> simp_all [Call.gates, Call.works]

theorem works_of_reserves {call : Call} (reserves : call.reserves) :
    call.works := by
  cases call <;> first | rfl | cases reserves

theorem settles_of_gates {call : Call} (gates : call.gates) :
    call.settles := by
  cases call <;> first | rfl | cases gates

theorem works_of_settles {call : Call} (settles : call.settles) :
    call.works := by
  cases call <;> first | rfl | cases settles

theorem works_of_delivers {jobId : JobId} {call : Call}
    (delivers : call.delivers jobId) : call.works := by
  cases call <;> simp_all [Call.delivers, Call.gates, Call.works]

theorem enqueues_of_gates {call : Call} (gates : call.gates) :
    call.enqueues := by
  cases call <;> simp_all [Call.gates, Call.enqueues]

theorem enqueues_of_slots {call : Call} (slots : call.slots) :
    call.enqueues := by
  cases call <;> simp_all [Call.slots, Call.gates, Call.enqueues]

theorem creates_of_slots {call : Call} (slots : call.slots) :
    call.creates := by
  cases call <;> first | exact slots | cases slots

theorem enqueues_of_creates {call : Call} (creates : call.creates) :
    call.enqueues := by
  cases call <;> first | rfl | cases creates

end Call

open Program

theorem check_within (webhookId : WebhookId) (cooldownMs : Int) :
    (Circuit.check webhookId cooldownMs).Within fun call => call.gates :=
  Within.bind (Within.perform rfl) fun _ => Within.perform rfl

theorem recordSuccess_within (webhookId : WebhookId) :
    (Circuit.recordSuccess webhookId).Within fun call => call.gates :=
  Within.perform rfl

theorem recordFailure_within (webhookId : WebhookId) (threshold : Int) :
    (Circuit.recordFailure webhookId threshold).Within
      fun call => call.gates :=
  Within.bind (Within.perform rfl) fun _ => Within.perform rfl

theorem take_within (webhookId : WebhookId) (rate burst cost : Int) :
    (RateLimit.take webhookId rate burst cost).Within
      fun call => call.gates :=
  Within.bind (Within.perform rfl) fun _ => Within.perform rfl

theorem backoffMs_within (attempts : Nat) :
    (Backoff.backoffMs attempts).Within fun call => call.gates :=
  Within.bind (Within.perform rfl) fun _ => trivial

theorem getById_within (id : WebhookId) :
    (WebhookService.getById id).Within fun call => call.gates :=
  Within.bind (Within.perform rfl) fun webhook => by
    cases webhook <;> trivial

theorem getSecret_within (id : WebhookId) :
    (WebhookService.getSecret id).Within fun call => call.gates :=
  Within.bind (Within.perform rfl) fun secret => by
    cases secret with
    | none => trivial
    | some secret =>
        dsimp only
        split <;> trivial

theorem getOwnedBy_within (id : WebhookId) (tenant : String) :
    (WebhookService.getOwnedBy id tenant).Within fun call => call.gates :=
  Within.bind (Within.perform rfl) fun webhook => by
    cases webhook with
    | none => trivial
    | some webhook =>
        dsimp only
        split <;> trivial

theorem send_within (request : DeliveryRequest) :
    (DeliveryService.send request).Within
      fun call => call.sends request.jobId :=
  Within.bind (Within.attempt (Within.perform (decide_eq_true rfl)))
    fun response => by
    cases response with
    | error failure => trivial
    | ok status =>
        exact Within.bind (Within.attempt (Within.perform rfl)) fun text => by
          cases text <;> trivial

theorem deliver_within (deployment : Deployment) (job : Job)
    (webhookUrl secret : String) :
    (DeliveryService.deliver deployment job webhookUrl secret).Within
      fun call => call.delivers job.id :=
  Within.bind (Within.perform (decide_eq_true rfl)) fun _ =>
  Within.bind (Within.perform rfl) fun _ =>
  Within.bind (Within.perform rfl) fun _ =>
  Within.bind ((send_within _).mono fun _ => Call.delivers_of_sends) fun _ =>
  Within.bind (Within.perform rfl) fun _ =>
  Within.bind (Within.perform (decide_eq_true rfl)) fun _ => trivial

theorem begin_within (tenant key : String) :
    (Idempotency.begin tenant key).Within fun call => call.slots :=
  Within.bind (Within.perform rfl) fun reserved => by
    split
    · trivial
    · exact Within.bind (Within.perform rfl) fun existing => by
        rcases existing with _ | _ | _ <;> trivial

theorem releaseSlot_within (input : EnqueueInput) :
    (JobService.releaseSlot input).Within fun call => call.slots := by
  unfold JobService.releaseSlot
  split
  · exact Within.perform rfl
  · trivial

theorem resolveSlot_within (input : EnqueueInput) (jobId : JobId) :
    (JobService.resolveSlot input jobId).Within fun call => call.slots := by
  unfold JobService.resolveSlot
  split
  · exact Within.perform rfl
  · trivial

/-! ## Whole programs -/

private theorem works_bind {Value Next : Type} {program : Async Value}
    {rest : Value → Async Next}
    (first : program.Within fun call => call.gates)
    (second : ∀ value, (rest value).Within fun call => call.works) :
    (program.bind rest).Within fun call => call.works :=
  Within.bind (first.mono fun _ => Call.works_of_gates) second

theorem deferUntil_within (jobId : JobId) (job : Job) (runAtMs : Int) :
    (JobService.deferUntil jobId job runAtMs).Within
      fun call => call.settles :=
  Within.bind (Within.perform rfl) fun _ => Within.perform rfl

theorem settle_within (deployment : Deployment) (jobId : JobId) (job : Job)
    (result : DeliveryService.DeliveryResult) :
    (JobService.settle deployment jobId job result).Within
      fun call => call.settles := by
  have settles : ∀ {Value Next : Type} {program : Async Value}
      {rest : Value → Async Next},
      (program.Within fun call => call.gates) →
        (∀ value, (rest value).Within fun call => call.settles) →
          (program.bind rest).Within fun call => call.settles :=
    fun first => Within.bind (first.mono fun _ => Call.settles_of_gates)
  unfold JobService.settle
  split
  · refine settles (recordSuccess_within _) fun _ => ?_
    exact Within.bind (Within.perform rfl) fun _ => Within.perform rfl
  · refine settles (recordFailure_within _ _) fun _ => ?_
    dsimp only
    split
    · exact Within.bind (Within.perform rfl) fun _ => Within.perform rfl
    · refine settles (backoffMs_within _) fun _ => ?_
      refine Within.bind (Within.perform rfl) fun _ => ?_
      exact Within.bind (Within.perform rfl) fun _ => Within.perform rfl

theorem deliverJob_within (deployment : Deployment) (jobId : JobId)
    (job : Job) :
    (JobService.deliverJob deployment jobId job).Within
      fun call => call.works :=
  Within.bind (Within.perform rfl) fun _ =>
  works_bind (getById_within _) fun _ =>
  works_bind (getSecret_within _) fun _ =>
  Within.bind ((deliver_within _ _ _ _).mono fun _ => Call.works_of_delivers)
    fun _ => (settle_within _ _ _ _).mono fun _ => Call.works_of_settles

theorem process_within (deployment : Deployment) (jobId : JobId) :
    (JobService.process deployment jobId).Within fun call => call.works := by
  refine Within.bind (Within.perform rfl) fun found => ?_
  cases found with
  | none => exact Within.perform rfl
  | some job =>
      dsimp only
      split
      · exact Within.perform rfl
      refine works_bind (check_within _ _) fun _ => ?_
      split
      · exact Within.bind (Within.perform rfl) fun _ =>
          (deferUntil_within _ _ _).mono fun _ => Call.works_of_settles
      refine works_bind (take_within _ _ _ _) fun _ => ?_
      split
      · exact Within.bind (Within.perform rfl) fun _ =>
          (deferUntil_within _ _ _).mono fun _ => Call.works_of_settles
      · exact deliverJob_within _ _ _

theorem reserve_within :
    Queue.reserve.Within fun call => call.reserves :=
  Within.bind (Within.perform rfl) fun popped => by
    cases popped with
    | none => trivial
    | some jobId =>
        exact Within.bind (Within.perform rfl) fun _ =>
          Within.bind (Within.perform rfl) fun _ => trivial

theorem consume_within (deployment : Deployment) :
    (Worker.consume deployment).Within fun call => call.works :=
  Within.bind (Within.attempt (reserve_within.mono
    fun _ => Call.works_of_reserves)) fun popped => by
    rcases popped with _ | _ | jobId
    · trivial
    · trivial
    · exact Within.tryCatch (process_within _ _) fun _ => trivial

theorem replayLoop_within (limit : Nat) (replayed : List JobId) :
    (JobService.replayLoop limit replayed).Within
      fun call => call.replays := by
  induction limit generalizing replayed with
  | zero => trivial
  | succ limit replaysRest =>
      refine Within.bind (Within.perform rfl) fun popped => ?_
      cases popped with
      | none => trivial
      | some jobId =>
          refine Within.bind (Within.perform rfl) fun found => ?_
          cases found with
          | none => exact replaysRest _
          | some job =>
              exact Within.bind (Within.perform rfl) fun _ => replaysRest _

theorem createJob_within (input : EnqueueInput) :
    (JobService.createJob input).Within fun call => call.creates := by
  refine Within.bind (Within.perform rfl) fun job => ?_
  refine Within.bind (Within.perform rfl) fun now => ?_
  have place : (JobService.place job now).Within
      fun call => call.creates := by
    unfold JobService.place
    split <;> exact Within.perform rfl
  refine Within.bind place fun _ => ?_
  exact Within.bind ((resolveSlot_within _ _).mono
    fun _ => Call.creates_of_slots) fun _ => trivial

theorem createOrAbort_within (input : EnqueueInput) :
    (JobService.createOrAbort input).Within fun call => call.creates :=
  Within.tryCatch (createJob_within input) fun _ =>
    Within.bind ((releaseSlot_within _).mono fun _ => Call.creates_of_slots)
      fun _ => trivial

theorem enqueue_within (input : EnqueueInput) :
    (JobService.enqueue input).Within fun call => call.enqueues := by
  have creates := (createOrAbort_within input).mono
    fun _ => Call.enqueues_of_creates
  refine Within.bind ((getOwnedBy_within _ _).mono
    fun _ => Call.enqueues_of_gates) fun webhook => ?_
  split
  · trivial
  split
  · exact creates
  refine Within.bind ((begin_within _ _).mono
    fun _ => Call.enqueues_of_slots) fun outcome => ?_
  cases outcome with
  | new => exact creates
  | duplicate jobId =>
      refine Within.bind (Within.perform rfl) fun existing => ?_
      cases existing with
      | none => exact creates
      | some job => trivial
  | pending => trivial

end WebhookDelivery
