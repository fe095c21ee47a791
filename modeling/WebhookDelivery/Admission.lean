import WebhookDelivery.Solo
import WebhookDelivery.RowSteps

/-!
# What is admitted and what can be sent

`register` checks the protocol of a URL, and the schema of `POST /events` the
lengths of the strings.  `fetch` is stricter: among others it refuses
credentials in the URL and most characters in a header.  A request that it
refuses is charged to the endpoint like a network failure.
-/

namespace WebhookDelivery

open Concurrency Program Discipline

/-! ## The boundary -/

structure RegisterWebhookBody where
  tenant : String
  url : String
  deriving DecidableEq

/-- The lengths a JSON schema allows a string. -/
def lengthWithin (minLength maxLength : Nat) (text : String) : Bool :=
  minLength ≤ text.length && text.length ≤ maxLength

def registerWebhookSchema (body : RegisterWebhookBody) : Bool :=
  lengthWithin 1 128 body.tenant && lengthWithin 1 2048 body.url

/-- The body of `POST /events`; the webhook's UUID, the payload's object and
the instant of `runAt` are parsed. -/
abbrev EnqueueEventBody := JobInput

def enqueueEventSchema (body : EnqueueEventBody) : Bool :=
  lengthWithin 1 128 body.tenant && lengthWithin 1 128 body.eventType

namespace WebhookService

/-- Only http(s) endpoints may be registered. -/
def assertDeliverableUrl (deployment : Deployment) (url : String) :
    Except AppError Unit :=
  match deployment.urlProtocol url with
  | none => .error (.validation "url is not a valid URL")
  | some protocol =>
      if protocol ≠ "http:" ∧ protocol ≠ "https:" then
        .error (.validation "url must use http or https")
      else .ok ()

/-- `toString('hex')`. -/
def hex (bytes : List (Fin 256)) : String :=
  String.ofList (bytes.flatMap fun byte =>
    [Nat.digitChar (byte.val / 16), Nat.digitChar (byte.val % 16)])

/-- The row that `register` inserts, given its id and 32 random bytes. -/
def register (deployment : Deployment) (id : WebhookId)
    (bytes : Fin 32 → Fin 256) (input : RegisterWebhookBody) :
    Except AppError WebhookRow :=
  match assertDeliverableUrl deployment input.url with
  | .error failure => .error failure
  | .ok _ =>
      if !(storableText input.tenant && storableText input.url) then
        .error (.other "invalid byte sequence for encoding")
      else
        .ok
          { id := id
            tenant := input.tenant
            url := input.url
            secret := hex (List.ofFn bytes)
            isActive := true }

end WebhookService

/-- A webhook that has been registered and an event for it that has been let
in. -/
structure Admission (deployment : Deployment) where
  registration : RegisterWebhookBody
  welcome : registerWebhookSchema registration
  uuid : WebhookId
  bytes : Fin 32 → Fin 256
  webhook : WebhookRow
  registered : WebhookService.register deployment uuid bytes registration =
    .ok webhook
  event : EnqueueEventBody
  accepted : enqueueEventSchema event
  addressed : event.webhookId = webhook.id

variable {deployment : Deployment}

namespace Admission

variable (admission : Admission deployment) (jobId : JobId)

/-- The stores hold nothing about the job and its webhook but what has been
admitted. -/
structure Stored (store : Store) : Prop where
  job : ∀ row, store.db.jobs jobId = some row →
    row.eventType = admission.event.eventType ∧
      row.webhookId = admission.webhook.id
  webhook : ∀ webhook,
    store.db.webhooks admission.webhook.id = some webhook →
      webhook.url = admission.registration.url

variable {admission jobId}

theorem Stored.exec {store : Store} (stored : admission.Stored jobId store)
    (choice : Choice) {call : Call} (works : call.works) :
    admission.Stored jobId (exec deployment choice call store).2 where
  job := by
    intro row found
    rcases exec_jobs_cases deployment choice call store jobId with
      kept | ⟨update, old, _, _, was, _, now⟩ | ⟨old, rfl, _⟩ | ⟨input, rfl, _⟩
    · exact stored.job row (kept ▸ found)
    · rw [now] at found
      cases found
      exact stored.job old was
    · cases works
    · cases works
  webhook := by
    rw [exec_webhooks]
    exact stored.webhook

/-- No step of the system changes what the stores hold about an event that has
been let in. -/
theorem Stored.step {before after : State} {action : Action}
    (stored : admission.Stored jobId before.store)
    (taken : WebhookDelivery.step deployment before action = some after)
    (issued : jobId ∈ before.store.db.issued)
    (registered : admission.webhook.id ∈ before.store.db.issued) :
    admission.Stored jobId after.store := by
  cases steps_of_step taken with
  | @performed _ pid choice process call =>
      refine ⟨fun row found => ?_, ?_⟩
      · rw [State.perform_store] at found
        rcases exec_jobs_cases deployment choice call before.store jobId with
          kept | ⟨update, old, _, _, was, _, now⟩ | ⟨old, _, was, now⟩ |
            ⟨input, _, unissued, _⟩
        · exact stored.job row (kept ▸ found)
        · rw [now] at found
          cases found
          exact stored.job old was
        · rw [now] at found
          cases found
          exact stored.job old was
        · exact absurd issued unissued
      · rw [State.perform_store, exec_webhooks]
        exact stored.webhook
  | @registered row unused =>
      refine ⟨stored.job, fun webhook found => stored.webhook webhook ?_⟩
      have other : admission.webhook.id ≠ row.id :=
        fun same => unused (same ▸ registered)
      exact (Function.update_of_ne other ..).symm.trans found
  | @deleted id =>
      refine ⟨fun row found => stored.job row ?_,
        fun webhook found => stored.webhook webhook ?_⟩
      · exact (Option.filter_eq_some_iff.mp found).1
      · by_cases same : admission.webhook.id = id
        · subst same
          change Function.update before.store.db.webhooks _ none _ = _
            at found
          rw [Function.update_self] at found
          cases found
        · exact (Function.update_of_ne same ..).symm.trans found
  | start | failed | crashed | shutdown | promoted | reaped | ticked =>
      exact ⟨stored.job, stored.webhook⟩

end Admission

/-! ## What an endpoint is charged with -/

namespace Event

def requests : Event → Bool
  | ⟨_, .fetch _, _⟩ => true
  | _ => false

/-- A request that has not been answered, a circuit failure, a failed attempt
or a dead letter. -/
def harms : Event → Bool
  | ⟨_, .fetch _, .error _⟩ => true
  | ⟨_, .recordFailure _ _ _, _⟩ => true
  | ⟨_, .updateState update, _⟩ =>
      update.incrementAttempts && decide (update.state ≠ .succeeded)
  | ⟨_, .deadLetter _, _⟩ => true
  | _ => false

end Event

/-- A request has been made. -/
def Requested (calls : List Event) : Prop :=
  ∃ event ∈ calls, event.requests = true

/-- The endpoint has not been charged with a failure. -/
def Harmless (calls : List Event) : Prop :=
  ∀ event ∈ calls, event.harms = false

instance (calls : List Event) : Decidable (Requested calls) :=
  inferInstanceAs (Decidable (∃ event ∈ calls, event.requests = true))

instance (calls : List Event) : Decidable (Harmless calls) :=
  inferInstanceAs (Decidable (∀ event ∈ calls, event.harms = false))

/-- The calls that are neither requests nor charges. -/
def Call.neutral (call : Call) : Bool :=
  call.works && match call with
  | .fetch _ | .recordFailure _ _ _ | .deadLetter _ => false
  | .updateState update =>
      !(update.incrementAttempts && decide (update.state ≠ .succeeded))
  | _ => true

theorem requested_cons (event : Event) (calls : List Event) :
    Requested (event :: calls) ↔ event.requests = true ∨ Requested calls := by
  simp [Requested]

theorem harmless_cons (event : Event) (calls : List Event) :
    Harmless (event :: calls) ↔ event.harms = false ∧ Harmless calls :=
  List.forall_mem_cons

theorem neutral_event {call : Call} (neutral : call.neutral) (pid : Pid)
    (outcome : Except AppError call.Reply) :
    Event.requests ⟨pid, call, outcome⟩ = false ∧
      Event.harms ⟨pid, call, outcome⟩ = false := by
  cases call with
  | updateState update =>
      simp only [Call.neutral, Call.works, Bool.true_and,
        Bool.not_eq_true'] at neutral
      exact ⟨rfl, neutral⟩
  | _ => first | exact ⟨rfl, rfl⟩ | cases neutral

/-! ## Harm along a call of `process` -/

namespace Admission

variable {admission : Admission deployment} {jobId : JobId} {pid : Pid}
  {permitted : Choice → Prop} {Value Next : Type}

/-- The request of the admitted event can be sent. -/
def sendable (admission : Admission deployment) : Bool :=
  deployment.sends admission.registration.url admission.event.eventType

/-- Up to now there has been no request and no charge. -/
def Quiet (calls : List Event) : Prop :=
  Harmless calls ∧ ¬Requested calls

theorem quiet_nil : Quiet [] :=
  ⟨List.forall_mem_nil _, by simp [Requested]⟩

/-- The request has been made; there is a charge if and only if it could not be
sent. -/
def Told (admission : Admission deployment) (calls : List Event) : Prop :=
  Requested calls ∧ (Harmless calls ↔ admission.sendable = true)

/-- There is a charge if and only if a request has been made that could not be
sent. -/
def Fair (admission : Admission deployment) (calls : List Event) : Prop :=
  Harmless calls ↔ (Requested calls → admission.sendable = true)

/-- What calls leave true that are neither requests nor charges. -/
structure Lasting (admission : Admission deployment)
    (holds : List Event → Prop) : Prop where
  cons : ∀ event calls, Event.requests event = false →
    Event.harms event = false → holds calls → holds (event :: calls)
  fair : ∀ calls, holds calls → admission.Fair calls

theorem lasting_quiet (admission : Admission deployment) :
    admission.Lasting Quiet where
  cons event calls unasked harmless quiet := by
    refine ⟨(harmless_cons ..).mpr ⟨harmless, quiet.1⟩, ?_⟩
    rw [requested_cons, unasked]
    simpa using quiet.2
  fair calls quiet :=
    iff_of_true quiet.1 fun requested => absurd requested quiet.2

theorem lasting_told (admission : Admission deployment) :
    admission.Lasting admission.Told where
  cons event calls unasked harmless told := by
    refine ⟨(requested_cons ..).mpr (.inr told.1), ?_⟩
    rw [harmless_cons, ← told.2]
    simp [harmless]
  fair calls told := by
    unfold Fair
    simp [told.1, told.2]

/-- The rules for a process that works on the admitted job. -/
abbrev discipline (admission : Admission deployment) (jobId : JobId)
    (pid : Pid) (permitted : Choice → Prop) :
    Discipline Call Call.Reply AppError :=
  sequential (exec deployment) (Event.mk pid)
    (fun store (_ : Unit) => admission.Stored jobId store) permitted

/-- Every end is fair. -/
abbrev EndsFair (admission : Admission deployment) (now : Unit × List Event)
    (_ : Except AppError Value) : Prop :=
  admission.Fair now.2

/-- Calls that are neither requests nor charges. -/
theorem neutral_follows {holds : List Event → Prop} {program : Async Value}
    {calls : List Event} (lasting : admission.Lasting holds)
    (within : program.Within fun call => call.neutral) (held : holds calls) :
    (admission.discipline jobId pid permitted).Follows
      (fun now _ => holds now.2) program ((), calls) := by
  refine Follows.of_within (fun now => holds now.2) within ?_ ?_ id ?_
    (fun _ _ => id) held
  · rintro _ _ held rfl
    exact held
  · intro view call _ neutral choice store _ stored
    exact ⟨(), stored.exec choice (Bool.and_eq_true .. ▸ neutral).1⟩
  · rintro view call outcome ⟨_, after⟩ held neutral
      ⟨_, _, _, _, _, _, rfl⟩
    obtain ⟨unasked, harmless⟩ := neutral_event neutral pid outcome
    exact lasting.cons _ _ unasked harmless held

/-- Sequencing after calls that are neither requests nor charges. -/
theorem follows_then {holds : List Event → Prop} {program : Async Value}
    {rest : Value → Async Next} {calls : List Event}
    (lasting : admission.Lasting holds)
    (within : program.Within fun call => call.neutral) (held : holds calls)
    (following : ∀ value calls, holds calls →
      (admission.discipline jobId pid permitted).Follows
        admission.EndsFair (rest value) ((), calls)) :
    (admission.discipline jobId pid permitted).Follows admission.EndsFair
      (program.bind rest) ((), calls) := by
  refine Follows.bind ((neutral_follows lasting within held).mono ?_)
  rintro ⟨_, calls⟩ (failure | value) held
  · exact lasting.fair _ held
  · exact following value calls held

/-- A call of the process, and what follows its answers. -/
theorem follows_call {call : Call} {rest : call.Reply → Async Value}
    {post : Unit × List Event → Except AppError Value → Prop}
    {calls : List Event} (works : call.works)
    (answers : ∀ choice store, permitted choice →
      admission.Stored jobId store →
        match (exec deployment choice call store).1 with
        | .ok reply => (admission.discipline jobId pid permitted).Follows
            post (rest reply) ((), ⟨pid, call, .ok reply⟩ :: calls)
        | .error failure =>
            post ((), ⟨pid, call, .error failure⟩ :: calls)
              (.error failure)) :
    (admission.discipline jobId pid permitted).Follows post
      ((await call).bind rest) ((), calls) := by
  refine Sequential.follows_call
    (fun choice _ _ stored => ⟨(), stored.exec choice works⟩) ?_
  intro choice store _ allowed stored result now _
  have following := answers choice store allowed stored
  dsimp only [result, now]
  split at following <;> rename_i outcome
  · simp only [outcome]
    exact following
  · simp only [outcome]
    exact following

theorem deferUntil_neutral (jobId : JobId) (job : Job) (runAtMs : Int) :
    (JobService.deferUntil jobId job runAtMs).Within
      fun call => call.neutral :=
  Within.bind (Within.perform rfl) fun _ => Within.perform rfl

theorem getSecret_neutral (id : WebhookId) :
    (WebhookService.getSecret id).Within fun call => call.neutral :=
  Within.bind (Within.perform rfl) fun secret => by
    cases secret with
    | none => trivial
    | some secret =>
        show Within _ (ite _ _ _)
        split <;> trivial

/-- A successful delivery is settled without a charge. -/
theorem settle_neutral {job : Job} {result : DeliveryService.DeliveryResult}
    (success : result.success = true) :
    (JobService.settle deployment jobId job result).Within
      fun call => call.neutral := by
  unfold JobService.settle
  rw [if_pos success]
  exact Within.bind (Within.perform rfl) fun _ =>
    Within.bind (Within.perform rfl) fun _ => Within.perform rfl

/-- A charge cannot be taken back. -/
theorem charged_follows {program : Async Value} {calls : List Event}
    (within : program.Within fun call => call.works)
    (requested : Requested calls) (charged : ¬Harmless calls)
    (unsendable : admission.sendable = false) :
    (admission.discipline jobId pid permitted).Follows admission.EndsFair
      program ((), calls) := by
  refine Follows.of_within
    (fun now => Requested now.2 ∧ ¬Harmless now.2) within ?_ ?_
    (fun held => held) ?_ ?_ ⟨requested, charged⟩
  · rintro _ _ held rfl
    exact held
  · intro view call _ works choice store _ stored
    exact ⟨(), stored.exec choice works⟩
  · rintro view call outcome ⟨_, after⟩ ⟨requested, charged⟩ _
      ⟨_, _, _, _, _, _, rfl⟩
    rw [requested_cons, harmless_cons]
    exact ⟨.inr requested, fun harmless => charged harmless.2⟩
  · rintro now _ ⟨requested, charged⟩
    refine iff_of_false charged fun sends => ?_
    rw [unsendable] at sends
    cases sends requested

end Admission

/-- The endpoint answers with a status of success. -/
def Choice.Healthy (choice : Choice) : Prop :=
  ∃ status, choice.response = .ok status ∧ DeliveryService.isOk status

namespace Admission

variable {admission : Admission deployment} {jobId : JobId} {pid : Pid}
  {calls : List Event}

/-- A healthy endpoint answers exactly the requests that can be sent. -/
theorem send_follows {request : DeliveryRequest}
    (url : request.url = admission.registration.url)
    (eventType : request.eventType = admission.event.eventType)
    (quiet : Quiet calls) :
    (admission.discipline jobId pid Choice.Healthy).Follows
      (fun now outcome => admission.Told now.2 ∧
        ∀ reply, outcome = .ok reply →
          (reply.1.any DeliveryService.isOk = true ↔
            admission.sendable = true))
      (DeliveryService.send request) ((), calls) := by
  rintro _ rfl
  refine ⟨fun choice _ _ stored => ⟨(), stored.exec choice rfl⟩,
    False.elim, ?_⟩
  rintro _ ⟨_, after⟩ ⟨choice, store, ⟨status, answers, ok⟩, _, rfl, _, rfl⟩
  cases refused : deployment.refusal admission.registration.url
      admission.event.eventType with
  | some refusal =>
      have raised : (exec deployment choice (.fetch request) store).1 =
          .error refusal := by
        simp only [exec, url, eventType, refused]
      have unsendable : admission.sendable = false := by
        simp [sendable, Deployment.sends, refused]
      rw [raised]
      refine ⟨False.elim, fun failure outcome => ?_,
        fun _ outcome => by cases outcome⟩
      refine Sequential.follows_pure ⟨⟨?_, ?_⟩, ?_⟩
      · exact (requested_cons ..).mpr (.inl rfl)
      · rw [harmless_cons]
        simp [Event.harms, unsendable]
      · rintro _ ⟨rfl⟩
        simp [unsendable]
  | none =>
      have answered : (exec deployment choice (.fetch request) store).1 =
          .ok status := by
        simp only [exec, url, eventType, refused]
        exact answers
      have sends : admission.sendable = true := by
        simp [sendable, Deployment.sends, refused]
      have told : admission.Told
          (⟨pid, .fetch request, .ok status⟩ :: calls) := by
        refine ⟨(requested_cons ..).mpr (.inl rfl), ?_⟩
        rw [harmless_cons]
        exact iff_of_true ⟨rfl, quiet.1⟩ sends
      have status : (some status).any DeliveryService.isOk = true ↔
          admission.sendable = true := iff_of_true ok sends
      rw [answered]
      refine ⟨False.elim, fun _ outcome => (by cases outcome), ?_⟩
      rintro reply ⟨rfl⟩
      show (admission.discipline jobId pid Choice.Healthy).Follows _
        (Program.bind (attempt (await .responseText)) _) _
      refine Follows.bind ((neutral_follows (lasting_told admission)
        (Within.attempt (Within.perform rfl)) told).mono ?_)
      rintro ⟨_, calls⟩ (failure | outcome) told
      · exact ⟨told, fun _ same => by cases same⟩
      · cases outcome with
        | error failure =>
            refine Sequential.follows_pure ⟨told, ?_⟩
            rintro _ ⟨rfl⟩
            exact status
        | ok text =>
            refine Sequential.follows_pure ⟨told, ?_⟩
            rintro _ ⟨rfl⟩
            exact status

/-- A delivery to a healthy endpoint makes a request, and succeeds exactly when
that can be sent. -/
theorem deliver_follows {job : Job} {webhookUrl secret : String}
    (url : webhookUrl = admission.registration.url)
    (eventType : job.eventType = admission.event.eventType)
    (quiet : Quiet calls) :
    (admission.discipline jobId pid Choice.Healthy).Follows
      (fun now outcome => admission.Told now.2 ∧
        ∀ result, outcome = .ok result →
          (result.success = true ↔ admission.sendable = true))
      (DeliveryService.deliver deployment job webhookUrl secret)
      ((), calls) := by
  have quietly := lasting_quiet admission
  have told := lasting_told admission
  refine follows_call rfl fun choice store _ _ => ?_
  have quiet := quietly.cons ⟨pid, .nextAttemptNumber job.id,
    .ok (store.db.nextAttemptNumber job.id)⟩ _ rfl rfl quiet
  refine follows_call rfl fun choice _ _ _ => ?_
  have quiet := quietly.cons ⟨pid, .now, .ok choice.now⟩ _ rfl rfl quiet
  refine follows_call rfl fun choice _ _ _ => ?_
  have quiet := quietly.cons ⟨pid, .now, .ok choice.now⟩ _ rfl rfl quiet
  refine Follows.bind ((send_follows url eventType quiet).mono ?_)
  rintro ⟨_, calls⟩ (failure | ⟨statusCode, responseBody, error⟩)
    ⟨sent, success⟩
  · exact ⟨sent, fun _ same => by cases same⟩
  refine Follows.bind ((neutral_follows told (Within.perform rfl)
    sent).mono ?_)
  rintro ⟨_, calls⟩ (failure | endedAt) sent
  · exact ⟨sent, fun _ same => by cases same⟩
  refine Follows.bind ((neutral_follows told (Within.perform rfl)
    sent).mono ?_)
  rintro ⟨_, calls⟩ (failure | recorded) sent
  · exact ⟨sent, fun _ same => by cases same⟩
  refine Sequential.follows_pure ⟨sent, ?_⟩
  rintro _ ⟨rfl⟩
  exact success _ rfl

theorem deliverJob_follows {job : Job}
    (eventType : job.eventType = admission.event.eventType)
    (webhookId : job.webhookId = admission.webhook.id)
    (quiet : Quiet calls) :
    (admission.discipline jobId pid Choice.Healthy).Follows
      admission.EndsFair (JobService.deliverJob deployment jobId job)
      ((), calls) := by
  have quietly := lasting_quiet admission
  apply follows_then quietly (Within.perform rfl) quiet
  intro _ calls quiet
  refine Follows.bind (follows_call rfl ?_)
  intro choice store _ stored
  have quiet : ∀ found, Quiet (⟨pid, .findWebhook job.webhookId,
      .ok found⟩ :: calls) :=
    fun found => quietly.cons _ _ rfl rfl quiet
  simp only [exec]
  cases found : store.db.webhooks job.webhookId with
  | none => exact Sequential.follows_throw (quietly.fair _ (quiet _))
  | some webhook =>
      apply Sequential.follows_pure
      apply follows_then quietly (getSecret_neutral _) (quiet _)
      intro secret calls quiet
      rw [webhookId] at found
      have url := stored.webhook webhook found
      refine Follows.bind ((deliver_follows url eventType quiet).mono ?_)
      rintro ⟨_, calls⟩ (failure | result) ⟨told, success⟩
      · exact (lasting_told admission).fair _ told
      have success := success result rfl
      by_cases succeeded : result.success = true
      · refine (neutral_follows (lasting_told admission)
          (settle_neutral succeeded) told).mono ?_
        exact fun now _ told => (lasting_told admission).fair _ told
      · have unsendable : ¬admission.sendable = true :=
          fun sends => succeeded (success.mpr sends)
        refine charged_follows ((settle_within _ _ _ _).mono
          fun _ => Call.works_of_settles) told.1 ?_ ?_
        · exact fun harmless => unsendable (told.2.mp harmless)
        · exact Bool.eq_false_of_not_eq_true unsendable

theorem process_follows :
    (admission.discipline jobId pid Choice.Healthy).Follows
      admission.EndsFair (JobService.process deployment jobId) ((), []) := by
  have quietly := lasting_quiet admission
  apply follows_call rfl
  intro choice store _ stored
  have quiet : ∀ found, Quiet [⟨pid, .findJob jobId, .ok found⟩] :=
    fun found => quietly.cons _ _ rfl rfl quiet_nil
  have ends : ∀ {program : Async Unit} {calls : List Event},
      (program.Within fun call => call.neutral) → Quiet calls →
        (admission.discipline jobId pid Choice.Healthy).Follows
          admission.EndsFair program ((), calls) :=
    fun within quiet => (neutral_follows quietly within quiet).mono
      fun _ _ quiet => quietly.fair _ quiet
  simp only [exec, Postgres.findJob]
  cases found : store.db.jobs jobId with
  | none => exact ends (Within.perform rfl) (quiet _)
  | some row =>
      obtain ⟨eventType, webhookId⟩ := stored.job row found
      show (admission.discipline jobId pid Choice.Healthy).Follows _
        (ite _ _ _) _
      split
      · exact ends (Within.perform rfl) (quiet _)
      refine follows_then quietly (Within.bind (Within.perform rfl)
        fun _ => Within.perform rfl) (quiet _) ?_
      intro circuitState calls quiet
      split
      · apply follows_then quietly (Within.perform rfl) quiet
        exact fun now calls quiet => ends (deferUntil_neutral _ _ _) quiet
      refine follows_then quietly (Within.bind (Within.perform rfl)
        fun _ => Within.perform rfl) quiet ?_
      intro rate calls quiet
      split
      · apply follows_then quietly (Within.perform rfl) quiet
        exact fun now calls quiet => ends (deferUntil_neutral _ _ _) quiet
      · exact deliverJob_follows eventType webhookId quiet

end Admission

/-- Some of what `fetch` refuses: a header value that is not a byte string, or
with NUL or a line break inside, and a URL with credentials. -/
structure Deployment.RefusesForbidden (deployment : Deployment) : Prop where
  header : ∀ url eventType,
    (headerValue eventType).any forbiddenInHeader = true →
      deployment.sends url eventType = false
  credentials : ∀ url eventType, deployment.hasCredentials url = true →
    deployment.sends url eventType = false

/-- A delivery of an admitted event charges a healthy endpoint unless `fetch`
takes its request to the network; a call of `process` charges it if and only if
it makes a request that `fetch` refuses.  It does so for an event type that no
header can carry and for a URL with credentials. -/
theorem admitted_harmless_iff_sendable (deployment : Deployment)
    (documented : deployment.RefusesForbidden)
    (admission : Admission deployment) (jobId : JobId) (pid : Pid)
    (store : Store) (around : Surroundings Store Choice AppError)
    (stored : admission.Stored jobId store)
    (kept : ∀ n store, admission.Stored jobId store →
      admission.Stored jobId (around.others n store))
    (healthy : around.Answer Choice.Healthy) :
    let sends := deployment.sends admission.registration.url
      admission.event.eventType = true
    (∀ job secret, job.eventType = admission.event.eventType →
      (Harmless ((DeliveryService.deliver deployment job
        admission.registration.url secret).run deployment pid around
          store).calls ↔ sends)) ∧
    let calls := ((JobService.process deployment jobId).run deployment pid
      around store).calls
    (Harmless calls ↔ (Requested calls → sends)) ∧
    ((headerValue admission.event.eventType).any forbiddenInHeader = true ∨
        deployment.hasCredentials admission.registration.url = true →
      Requested calls → ¬Harmless calls) := by
  have spare := fun n store (_ : Unit) => kept n store
  have processed : let calls := ((JobService.process deployment jobId).run
      deployment pid around store).calls
      Harmless calls ↔ (Requested calls → admission.sendable = true) := by
    obtain ⟨_, _, _, _, fair⟩ := (@Admission.process_follows _ admission
      jobId pid).execute spare healthy stored 0
    exact fair
  refine ⟨fun job secret eventType => ?_, processed, ?_⟩
  · obtain ⟨_, _, _, _, told, _⟩ := (@Admission.deliver_follows _ admission
      jobId pid [] job _ secret rfl eventType
        Admission.quiet_nil).execute spare healthy stored 0
    exact told.2
  · intro refused requested harmless
    have sends := processed.mp harmless requested
    have kept : admission.sendable = false :=
      refused.elim (documented.header _ _) (documented.credentials _ _)
    rw [kept] at sends
    cases sends

/-- The stores right after a webhook has been registered and an event for it
has been let in. -/
def Admission.store (admission : Admission deployment) (jobId : JobId) :
    Store where
  redis := .empty
  db := ((Postgres.empty.insertWebhook admission.webhook).insertJob
    deployment.jsonb deployment.maxAttempts jobId 0 admission.event).2

/-- An event of the given type for a webhook of acme. -/
def acmeAdmission (eventType : String)
    (accepted : enqueueEventSchema ⟨"acme", 1, eventType, "{}", none⟩) :
    Admission {} where
  registration := ⟨"acme", "https://acme.test/hook"⟩
  welcome := by decide +kernel
  uuid := 1
  bytes := fun _ => 171
  webhook := ⟨1, "acme", "https://acme.test/hook",
    WebhookService.hex (List.replicate 32 171), true⟩
  registered := by decide +kernel
  event := ⟨"acme", 1, eventType, "{}", none⟩
  accepted := accepted
  addressed := rfl

theorem admitted_harmless_iff_sendable_ascii :
    let admission := acmeAdmission "order.paid" (by decide +kernel)
    let sends := Deployment.sends {} admission.registration.url
      admission.event.eventType = true
    (∀ job secret, job.eventType = admission.event.eventType →
      (Harmless ((DeliveryService.deliver {} job
        admission.registration.url secret).run {} 0 (.undisturbed {})
          (admission.store 2)).calls ↔ sends)) ∧
    let calls := ((JobService.process {} 2).run {} 0 (.undisturbed {})
      (admission.store 2)).calls
    (Harmless calls ↔ (Requested calls → sends)) ∧
    ((headerValue admission.event.eventType).any forbiddenInHeader = true ∨
        Deployment.hasCredentials {} admission.registration.url = true →
      Requested calls → ¬Harmless calls) :=
  admitted_harmless_iff_sendable {} ⟨by simp +contextual [Deployment.sends],
    by simp⟩ _ 2 0 _ _
    ⟨by rintro _ ⟨rfl⟩; exact ⟨rfl, rfl⟩, by rintro _ ⟨rfl⟩; rfl⟩
    (fun _ _ stored => stored) fun _ => ⟨_, rfl, 200, rfl, rfl⟩

/-- An event type outside Latin-1 is let in, but `fetch` refuses the header:
the endpoint, which would answer every request with 200, is charged with a
circuit failure and a failed attempt. -/
theorem foreign_event_charged :
    let admission := acmeAdmission "注文.paid" (by decide +kernel)
    let calls := ((JobService.process {} 2).run {} 0 (.undisturbed {})
      (admission.store 2)).calls
    admission.Stored 2 (admission.store 2) ∧ ¬Harmless calls := by
  refine ⟨⟨?_, ?_⟩, by decide +kernel⟩
  · rintro _ ⟨rfl⟩
    exact ⟨rfl, rfl⟩
  · rintro _ ⟨rfl⟩
    rfl

end WebhookDelivery
