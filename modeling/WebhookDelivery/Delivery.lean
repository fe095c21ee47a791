import WebhookDelivery.Services

/-!
# Delivering a webhook over HTTP

`delivery.service.ts`: one signed attempt, recorded in the audit trail
whatever its outcome.
-/

namespace WebhookDelivery

open Concurrency

namespace DeliveryService

structure DeliveryResult where
  success : Bool
  statusCode : Option Nat
  error : Option String
  durationMs : Int
  retryable : Bool

/-- Enough of the response to debug with; not enough to bloat the table. -/
def maxBodyChars : Nat := 2000

/-- `text.slice(0, units)` counted in UTF-16 code units.  Half of a surrogate
pair is stored as the replacement character. -/
def sliceUnits : Nat → List Char → List Char
  | 0, _ => []
  | _, [] => []
  | 1, char :: _ => [if char.toNat < 0x10000 then char else '\uFFFD']
  | units + 2, char :: chars =>
      if char.toNat < 0x10000 then char :: sliceUnits (units + 1) chars
      else char :: sliceUnits units chars

def sign (deployment : Deployment) (secret : String) (timestamp : Int)
    (body : String) : String :=
  deployment.hmacSha256 secret (toString timestamp ++ "." ++ body)

def isOk (statusCode : Nat) : Bool :=
  200 ≤ statusCode && statusCode < 300

/-- The `try` block of `deliver`: status code, response body and error. -/
def send (request : DeliveryRequest) :
    Async (Option Nat × Option String × Option String) := do
  match ← Program.attempt (await (.fetch request)) with
  | .error failure => return (none, none, some failure.message)
  | .ok status =>
      match ← Program.attempt (await .responseText) with
      | .error failure => return (some status, none, some failure.message)
      | .ok text =>
          let responseBody := String.ofList (sliceUnits maxBodyChars text.toList)
          let error := if isOk status then none else some s!"HTTP {status}"
          return (some status, some responseBody, error)

def deliver (deployment : Deployment) (job : Job) (webhookUrl secret : String) :
    Async DeliveryResult := do
  let attemptNumber ← await (.nextAttemptNumber job.id)
  let startedAt ← await .now
  let timestamp ← await .now
  let (statusCode, responseBody, error) ← send
    { url := webhookUrl
      eventType := job.eventType
      jobId := job.id
      attempt := attemptNumber
      timestamp := timestamp
      signature := "v1=" ++ sign deployment secret timestamp job.payload
      body := job.payload }
  let endedAt ← await .now
  let durationMs := endedAt - startedAt
  let success := statusCode.any isOk
  await (.insertAttempt
    { jobId := job.id
      attemptNumber := attemptNumber
      statusCode := statusCode
      responseBody := responseBody
      error := error
      durationMs := durationMs })
  return {
    success := success
    statusCode := statusCode
    error := error
    durationMs := durationMs
    retryable := !success && Backoff.isRetryable statusCode }

end DeliveryService

end WebhookDelivery
