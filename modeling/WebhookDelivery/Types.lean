import Mathlib.Init

/-!
# Rows, jobs and errors

The data the platform stores and passes around: the rows Postgres returns, the
shapes handed to callers, domain errors, and the parts of the deployment the
code reads from its surroundings.  Instants are milliseconds since the epoch.
-/

namespace WebhookDelivery

/-- A UUID as its 128-bit value; canonical UUID text is ordered the same
way. -/
abbrev JobId := Nat

abbrev WebhookId := Nat

inductive JobState
  | queued
  | inFlight
  | succeeded
  | failed
  | dead
  deriving DecidableEq, Inhabited, Repr

structure WebhookRow where
  id : WebhookId
  tenant : String
  url : String
  secret : String
  isActive : Bool
  deriving DecidableEq

/-- A webhook as the repository hands it out; the secret stays behind. -/
structure Webhook where
  id : WebhookId
  tenant : String
  url : String
  isActive : Bool
  deriving DecidableEq

def WebhookRow.toWebhook (row : WebhookRow) : Webhook where
  id := row.id
  tenant := row.tenant
  url := row.url
  isActive := row.isActive

structure JobRow where
  id : JobId
  tenant : String
  webhookId : WebhookId
  eventType : String
  payload : String
  state : JobState
  attempts : Nat
  maxAttempts : Nat
  runAt : Int
  lastError : Option String
  createdAt : Int
  updatedAt : Int
  deriving DecidableEq, Inhabited

/-- A job as the repository hands it out: the row without `updatedAt`. -/
structure Job where
  id : JobId
  tenant : String
  webhookId : WebhookId
  eventType : String
  payload : String
  state : JobState
  attempts : Nat
  maxAttempts : Nat
  runAt : Int
  lastError : Option String
  createdAt : Int
  deriving DecidableEq

def JobRow.toJob (row : JobRow) : Job where
  id := row.id
  tenant := row.tenant
  webhookId := row.webhookId
  eventType := row.eventType
  payload := row.payload
  state := row.state
  attempts := row.attempts
  maxAttempts := row.maxAttempts
  runAt := row.runAt
  lastError := row.lastError
  createdAt := row.createdAt

structure AttemptRecord where
  jobId : JobId
  attemptNumber : Nat
  statusCode : Option Nat
  responseBody : Option String
  error : Option String
  durationMs : Int
  deriving DecidableEq

/-- What `fetch` is asked to send; `body` is the serialised payload. -/
structure DeliveryRequest where
  url : String
  eventType : String
  jobId : JobId
  attempt : Nat
  timestamp : Int
  signature : String
  body : String
  deriving DecidableEq

structure JobInput where
  tenant : String
  webhookId : WebhookId
  eventType : String
  payload : String
  runAt : Option Int := none
  deriving DecidableEq

structure EnqueueInput extends JobInput where
  idempotencyKey : Option String := none
  deriving DecidableEq

inductive AppError
  | notFound (message : String)
  | validation (message : String)
  | conflict (message : String)
  | other (message : String)
  deriving DecidableEq

def AppError.message : AppError → String
  | .notFound message | .validation message | .conflict message
  | .other message => message

/-- The status with which the error boundary in `routes.ts` answers. -/
def AppError.status : AppError → Nat
  | .notFound _ => 404
  | .validation _ => 400
  | .conflict _ => 409
  | .other _ => 500

/-! ## The surroundings -/

/-- The white space `fetch` strips from both ends of a header value. -/
def headerSpace (char : Char) : Bool :=
  char = ' ' || char = '\t' || char = '\n' || char = '\r'

/-- What `fetch` makes of the text of a header. -/
def headerValue (text : String) : List Char :=
  ((text.toList.dropWhile headerSpace).reverse.dropWhile headerSpace).reverse

/-- A header value is a byte string without NUL and line breaks. -/
def forbiddenInHeader (char : Char) : Bool :=
  decide (0xFF < char.toNat) || char = '\u0000' || char = '\n' ||
    char = '\r'

/-- What the code takes from its surroundings: the settings of `config.ts`, the
default of the `maxAttempts` column, and the library functions whose source is
not part of the repository. -/
structure Deployment where
  perSecond : Int := 10
  burst : Int := 20
  failureThreshold : Int := 5
  cooldownMs : Int := 30000
  maxAttempts : Nat := 5
  /-- `createHmac('sha256', key).update(text).digest('hex')`. -/
  hmacSha256 : String → String → String := fun _ text => text
  /-- The protocol of a URL; nothing when the URL parser rejects it. -/
  urlProtocol : String → Option String := fun url =>
    some (String.ofList (url.toList.takeWhile fun char => char ≠ ':') ++ ":")
  /-- Whether the URL parser finds a user name or a password in a URL. -/
  hasCredentials : String → Bool := fun _ => false
  /-- The error of `fetch` for a URL and a value of `x-event-type` that it does
  not take to the network; the other headers are digits and ASCII words. -/
  refusal : String → String → Option AppError := fun _ eventType =>
    if (headerValue eventType).any forbiddenInHeader then
      some (.other "fetch failed")
    else none
  /-- The object a `JSONB` column gives back for a serialised object, again
  serialised; nothing when Postgres refuses the object. -/
  jsonb : String → Option String := some

/-- `fetch` takes a request with this URL and event type to the network. -/
def Deployment.sends (deployment : Deployment) (url eventType : String) :
    Bool :=
  (deployment.refusal url eventType).isNone

end WebhookDelivery
