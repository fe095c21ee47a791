import WebhookDelivery.Delivery

/-!
# The job service and the worker loop

`enqueue`, `process` and `replay` of `job.service.ts`, and one iteration of
the consume loop of `worker.ts`.
-/

namespace WebhookDelivery

open Concurrency

namespace JobService

variable (deployment : Deployment)

/-- The idempotency key, when it is present and not the empty string. -/
def requestKey (input : EnqueueInput) : Option String :=
  input.idempotencyKey.filter fun key => decide (key ≠ "")

/-- A job due in the future goes to the delayed set, any other to `ready`. -/
def place (job : Job) (now : Int) : Async Unit :=
  if job.runAt > now then
    Queue.pushDelayed job.id job.runAt
  else
    Queue.push job.id

/-- Resolve the reserved slot, if there is one, to the job just created. -/
def resolveSlot (input : EnqueueInput) (jobId : JobId) : Async Unit :=
  match requestKey input with
  | some key => Idempotency.complete input.tenant key jobId
  | none => pure ()

/-- Release the reserved slot, if there is one. -/
def releaseSlot (input : EnqueueInput) : Async Unit :=
  match requestKey input with
  | some key => Idempotency.abort input.tenant key
  | none => pure ()

/-- The `try` block of `enqueue`: the row first, then the id. -/
def createJob (input : EnqueueInput) : Async Job := do
  let job ← JobRepository.insert input.toJobInput
  let now ← await .now
  place job now
  resolveSlot input job.id
  return job

/-- The `try`/`catch` of `enqueue`. -/
def createOrAbort (input : EnqueueInput) : Async Job :=
  Program.tryCatch (createJob input) fun failure => do
    releaseSlot input
    throw failure

def enqueue (input : EnqueueInput) : Async Job := do
  let webhook ← WebhookService.getOwnedBy input.webhookId input.tenant
  if !webhook.isActive then
    throw (.conflict "webhook is inactive")
  else
    match requestKey input with
    | none => createOrAbort input
    | some key =>
        match ← Idempotency.begin input.tenant key with
        | .new => createOrAbort input
        | .duplicate jobId =>
            match ← JobRepository.findById jobId with
            | some existing => return existing
            | none => createOrAbort input
        | .pending =>
            throw (.conflict
              "a request with this idempotency key is in progress")

/-- Postpone a job without spending an attempt. -/
def deferUntil (jobId : JobId) (job : Job) (runAtMs : Int) : Async Unit := do
  let _ ← JobRepository.updateState
    { id := job.id, state := .queued, runAt := some runAtMs }
  Queue.retryLater jobId runAtMs

/-- What follows a delivery: success, dead-lettering, or another attempt. -/
def settle (jobId : JobId) (job : Job)
    (result : DeliveryService.DeliveryResult) : Async Unit := do
  if result.success then
    Circuit.recordSuccess job.webhookId
    let _ ← JobRepository.updateState
      { id := job.id, state := .succeeded, incrementAttempts := true,
        lastError := none }
    Queue.ack jobId
  else
    let _ ← Circuit.recordFailure job.webhookId deployment.failureThreshold
    let attemptsAfter := job.attempts + 1
    if !result.retryable || attemptsAfter ≥ job.maxAttempts then
      let _ ← JobRepository.updateState
        { id := job.id, state := .dead, incrementAttempts := true,
          lastError := result.error }
      Queue.deadLetter jobId
    else
      let delayMs ← Backoff.backoffMs attemptsAfter
      let now : Int ← await .now
      let _ ← JobRepository.updateState
        { id := job.id, state := .queued, incrementAttempts := true,
          lastError := result.error, runAt := some (now + delayMs) }
      Queue.retryLater jobId (now + delayMs)

/-- The part of `process` after both preflight gates have let the job by. -/
def deliverJob (jobId : JobId) (job : Job) : Async Unit := do
  let _ ← JobRepository.updateState { id := job.id, state := .inFlight }
  let webhook ← WebhookService.getById job.webhookId
  let secret ← WebhookService.getSecret job.webhookId
  let result ← DeliveryService.deliver deployment job webhook.url secret
  settle deployment jobId job result

/-- Process one reserved job, then release the claim on it. -/
def process (jobId : JobId) : Async Unit := do
  match ← JobRepository.findById jobId with
  | none => Queue.ack jobId
  | some job =>
      if job.state = .succeeded ∨ job.state = .dead then
        Queue.ack jobId
      else
        let circuitState ← Circuit.check job.webhookId deployment.cooldownMs
        if circuitState = .opened then
          let now ← await .now
          deferUntil jobId job (now + deployment.cooldownMs)
        else
          let rate ← RateLimit.take job.webhookId deployment.perSecond
            deployment.burst
          if !rate.allowed then
            let now ← await .now
            deferUntil jobId job (now + max rate.retryAfterMs 100)
          else
            deliverJob deployment jobId job

/-- The loop of `replay` with `limit` iterations left. -/
def replayLoop : Nat → List JobId → Async (List JobId)
  | 0, replayed => pure replayed
  | limit + 1, replayed => do
      match ← Queue.popDlq with
      | none => return replayed
      | some jobId =>
          match ← JobRepository.resetForReplay jobId with
          | none => replayLoop limit replayed
          | some _ =>
              Queue.push jobId
              replayLoop limit (replayed ++ [jobId])

def replay (limit : Nat) : Async (List JobId) :=
  replayLoop limit []

end JobService

namespace Worker

/-- One iteration of the consume loop: an error of `reserve` or of `process`
is logged and swallowed. -/
def consume (deployment : Deployment) : Async Unit := do
  match ← Program.attempt Queue.reserve with
  | .error _ => return ()
  | .ok none => return ()
  | .ok (some jobId) =>
      Program.tryCatch (JobService.process deployment jobId) fun _ => pure ()

end Worker

end WebhookDelivery
