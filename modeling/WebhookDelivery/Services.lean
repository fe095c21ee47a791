import WebhookDelivery.Calls

/-!
# Thin wrappers over the stores

The functions of `queue.ts`, `idempotency.ts`, `circuit.ts`, `ratelimit.ts`,
`backoff.ts`, the repositories and the webhook service that the job service is
written with.
-/

namespace WebhookDelivery

open Concurrency

/-! ## `queue.ts` -/

namespace Queue

/-- How long a worker may hold a job before it is considered dead. -/
def visibilityTimeoutMs : Int := 60000

def push (jobId : JobId) : Async Unit :=
  await (.push jobId)

def pushDelayed (jobId : JobId) (runAtMs : Int) : Async Unit :=
  await (.pushDelayed jobId runAtMs)

/-- Claim a job: move it to `inflight`, then record the lease. -/
def reserve : Async (Option JobId) := do
  let popped ← await .brpoplpush
  match popped with
  | none => return none
  | some jobId =>
      let now ← await .now
      await (.zaddLease jobId (now + visibilityTimeoutMs))
      return some jobId

def ack (jobId : JobId) : Async Unit :=
  await (.ack jobId)

def retryLater (jobId : JobId) (runAtMs : Int) : Async Unit :=
  await (.retryLater jobId runAtMs)

def deadLetter (jobId : JobId) : Async Unit :=
  await (.deadLetter jobId)

def popDlq : Async (Option JobId) :=
  await .popDlq

end Queue

/-! ## `idempotency.ts` -/

namespace Idempotency

/-- The Redis key of the slot of a tenant's idempotency key. -/
def redisKey (tenant key : String) : String :=
  "idem:" ++ tenant ++ ":" ++ key

inductive BeginResult
  | new
  | duplicate (jobId : JobId)
  | pending

def begin (tenant key : String) : Async BeginResult := do
  let reserved ← await (.setSlotNx (redisKey tenant key))
  if reserved then
    return .new
  else
    match ← await (.getSlot (redisKey tenant key)) with
    | some (.job jobId) => return .duplicate jobId
    | some .pending => return .pending
    | none => return .pending

def complete (tenant key : String) (jobId : JobId) : Async Unit :=
  await (.setSlot (redisKey tenant key) jobId)

def abort (tenant key : String) : Async Unit :=
  await (.delSlot (redisKey tenant key))

end Idempotency

/-! ## `circuit.ts` and `ratelimit.ts` -/

namespace Circuit

def check (webhookId : WebhookId) (cooldownMs : Int) :
    Async CircuitState := do
  let now ← await .now
  await (.checkCircuit webhookId now cooldownMs)

def recordSuccess (webhookId : WebhookId) : Async Unit :=
  await (.recordSuccess webhookId)

def recordFailure (webhookId : WebhookId) (threshold : Int) :
    Async CircuitState := do
  let now ← await .now
  await (.recordFailure webhookId threshold now)

end Circuit

namespace RateLimit

def take (webhookId : WebhookId) (ratePerSecond burst : Int)
    (cost : Int := 1) : Async RateResult := do
  let now ← await .now
  await (.take webhookId ratePerSecond burst now cost)

end RateLimit

/-! ## `backoff.ts` -/

namespace Backoff

def baseDelayMs : Nat := 1000

def maxDelayMs : Nat := 60000

/-- The cap of the jittered delay before attempt number `attempts + 1`. -/
def cappedMs (attempts : Nat) : Nat :=
  min (baseDelayMs * 2 ^ (attempts - 1)) maxDelayMs

/-- Full jitter: uniform below the cap. -/
def backoffMs (attempts : Nat) : Async Int := do
  let dice ← await .random
  return ((dice.val * cappedMs attempts / 2 ^ 53 : Nat) : Int)

/-- Should a failed delivery be retried?  No status means no response. -/
def isRetryable : Option Nat → Bool
  | none => true
  | some statusCode =>
      statusCode = 408 || statusCode = 429 || statusCode ≥ 500

end Backoff

/-! ## Repositories and the webhook service -/

namespace JobRepository

def insert (input : JobInput) : Async Job :=
  await (.insertJob input)

def findById (id : JobId) : Async (Option Job) :=
  await (.findJob id)

def updateState (update : StateUpdate) : Async (Option Job) :=
  await (.updateState update)

def resetForReplay (id : JobId) : Async (Option Job) :=
  await (.resetForReplay id)

end JobRepository

namespace WebhookService

def getById (id : WebhookId) : Async Webhook := do
  match ← await (.findWebhook id) with
  | none => throw (.notFound "webhook not found")
  | some webhook => return webhook

def getSecret (id : WebhookId) : Async String := do
  match ← await (.findSecret id) with
  | none => throw (.notFound "webhook not found")
  | some secret =>
      if secret = "" then
        throw (.notFound "webhook not found")
      else
        return secret

/-- Resolves a webhook that `tenant` is allowed to enqueue against. -/
def getOwnedBy (id : WebhookId) (tenant : String) : Async Webhook := do
  match ← await (.findWebhook id) with
  | none => throw (.notFound "webhook not found")
  | some webhook =>
      if webhook.tenant ≠ tenant then
        throw (.notFound "webhook not found")
      else
        return webhook

end WebhookService

end WebhookDelivery
