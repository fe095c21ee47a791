import WebhookDelivery.Solo

/-!
# Which answers wedge a job

The texts of an answer flow into the audit record before the outcome of the job
is written.  Postgres refuses a text with `U+0000`; then `process` throws, the
attempt is not counted, and the job comes back after its lease has run out.
-/

namespace WebhookDelivery

open Concurrency

/-- One delivery has been recorded, one attempt counted and one claim ended,
and nothing has been thrown. -/
structure Settled (jobId : JobId) (before : Store)
    (execution : Execution Event AppError Unit Store) : Prop where
  returned : execution.ended = some (.ok ())
  recorded : (execution.world.db.attemptsOf jobId).length =
    (before.db.attemptsOf jobId).length + 1
  counted : ∃ row settled, before.db.jobs jobId = some row ∧
    execution.world.db.jobs jobId = some settled ∧
      settled.attempts = row.attempts + 1
  released : releasesOf jobId execution.calls = 1

/-- Postgres takes what is kept of the endpoint's answer: the head of the body,
or the text of the network error. -/
def Endpoint.storable (endpoint : Endpoint) : Bool :=
  match endpoint.response, endpoint.text with
  | .error failure, _ => storableText failure.message
  | .ok _, .error failure => storableText failure.message
  | .ok _, .ok text => (DeliveryService.sliceUnits
      DeliveryService.maxBodyChars text.toList).all fun char =>
        decide (char ≠ '\u0000')

theorem storableText_append (first second : String) :
    storableText (first ++ second) =
      (storableText first && storableText second) := by
  simp [storableText]

/-- A number has no `U+0000` in its digits. -/
theorem storableText_toString (number : Nat) :
    storableText (toString number) := by
  rw [storableText, Nat.toString_eq_ofList_toDigits, String.toList_ofList,
    List.all_eq_true]
  intro char member
  have digit := Nat.isDigit_of_mem_toDigits (by decide) (by decide) member
  apply decide_eq_true
  rintro rfl
  cases digit

theorem storable_reply (endpoint : Endpoint) :
    endpoint.reply.storable = endpoint.storable := by
  unfold Endpoint.reply Endpoint.storable DeliveryReply.storable
  cases endpoint.response with
  | error failure => rfl
  | ok status =>
      cases endpoint.text with
      | error failure => rfl
      | ok text =>
          have numbered : storableText s!"HTTP {status}" = true := by
            show storableText ("HTTP " ++ toString status) = true
            rw [storableText_append, storableText_toString]
            rfl
          by_cases ok : DeliveryService.isOk status
          · simp [ok, storableText]
          · simp only [ok, Bool.false_eq_true, if_false, Option.all_some,
              numbered, Bool.and_true]
            simp [storableText]

/-- A delivery that both gates let pass is settled if and only if Postgres takes
what is kept of the endpoint's answer, or of the error of `fetch`. -/
theorem process_settles_iff_storable (deployment : Deployment) (pid : Pid)
    (store : Store) (around : Surroundings Store Choice AppError)
    (endpoint : Endpoint) {jobId : JobId} {row : JobRow}
    {webhook : WebhookRow} (found : store.db.jobs jobId = some row)
    (unfinished : row.state = .queued ∨ row.state = .inFlight)
    (budget : row.attempts < row.maxAttempts)
    (registered : store.db.webhooks row.webhookId = some webhook)
    (signed : webhook.secret ≠ "")
    (sole : ∀ n store, (around.others n store).view jobId = store.view jobId)
    (available : around.Answer endpoint.Behind)
    (opened : GatesOpen ((JobService.process deployment jobId).run deployment
      pid around store).calls) :
    Settled jobId store
        ((JobService.process deployment jobId).run deployment pid around
          store) ↔
      (endpoint.behindRefusal
        (deployment.refusal webhook.url row.eventType)).storable = true := by
  have deliverable : Solo.Deliverable (store.view jobId) row webhook := by
    refine ⟨found, ?_, signed, budget.le⟩
    simp [Store.view, found, registered]
  have open_ : ¬(row.state = .succeeded ∨ row.state = .dead) := by
    rcases unfinished with queued | inFlight
    · simp [queued]
    · simp [inFlight]
  have spare : around.Spare fun store view => store.view jobId = view :=
    fun n store view same => (sole n store).trans same
  obtain ⟨outcome, after, ended, left, processed⟩ := (@Solo.process_follows
    deployment pid jobId endpoint _ _ _ deliverable (store.db.keyed found)
      open_).execute spare available rfl 0
  subst left
  rw [← storable_reply]
  constructor
  · intro settled
    have returned : outcome = .ok () :=
      Option.some.inj (ended.symm.trans settled.returned)
    subst returned
    cases processed with
    | barred barred => exact absurd opened barred
    | overspent spent => omega
    | settled storable => exact storable
  · intro storable
    cases processed with
    | barred barred => exact absurd opened barred
    | unrecorded refused =>
        rw [storable] at refused
        cases refused
    | overspent spent => omega
    | settled _ recorded stored counted released =>
        refine ⟨ended, ?_, ⟨row, _, found, stored, counted⟩, released⟩
        have lengths := congrArg List.length recorded
        simpa [Store.view] using lengths

def acmeWebhook : WebhookRow :=
  ⟨1, "acme", "https://acme.test/hook", "s3cret", true⟩

def paidEvent : JobInput where
  tenant := "acme"
  webhookId := 1
  eventType := "order.paid"
  payload := "{}"

/-- One job, claimed by a worker; its webhook has just been registered. -/
def claimedJob : Store where
  redis := { Redis.empty with inflight := [2] }
  db := ((Postgres.empty.insertWebhook acmeWebhook).insertJob some
    5 2 0 paidEvent).2

theorem process_settles_iff_storable_serverError :
    Settled 2 claimedJob
        ((JobService.process {} 2).run {} 0
          (.undisturbed { response := .ok 503, text := .ok "busy" })
          claimedJob) ↔
      (Endpoint.behindRefusal ⟨.ok 503, .ok "busy"⟩ (Deployment.refusal {}
        acmeWebhook.url paidEvent.eventType)).storable = true :=
  @process_settles_iff_storable {} 0 claimedJob _ ⟨.ok 503, .ok "busy"⟩ 2
    (paidEvent.newRow 5 2 0 "{}") acmeWebhook rfl (.inl rfl) (by decide) rfl
    (by decide) (fun _ _ => rfl) (fun _ => ⟨_, rfl, rfl, rfl⟩)
    (by decide +kernel)

/-- An endpoint answers 200 with a body that contains `U+0000`: `process`
throws, and nothing is recorded, counted or released. -/
theorem nul_in_body_wedges :
    let execution := (JobService.process {} 2).run {} 0
      (.undisturbed { response := .ok 200, text := .ok "\u0000" }) claimedJob
    GatesOpen execution.calls ∧ ¬Settled 2 claimedJob execution := by
  refine ⟨by decide +kernel, fun settled => ?_⟩
  have released := settled.released
  revert released
  decide +kernel

end WebhookDelivery
