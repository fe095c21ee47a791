import WebhookDelivery.Library.Program
import WebhookDelivery.Redis
import WebhookDelivery.Postgres

/-!
# The calls a process awaits

Every Redis command or script and every SQL statement the services issue, plus
the reads of the clock, the dice and the network, as one type of calls with
their replies.  `exec` runs one call atomically on the two stores; what the
stores do not determine comes from a `Choice` of the environment.
-/

namespace WebhookDelivery

open Concurrency

inductive Call
  -- node
  | now
  | random
  | fetch (request : DeliveryRequest)
  | responseText
  -- queue.ts
  | push (jobId : JobId)
  | pushDelayed (jobId : JobId) (runAtMs : Int)
  | brpoplpush
  | zaddLease (jobId : JobId) (expiry : Int)
  | ack (jobId : JobId)
  | retryLater (jobId : JobId) (runAtMs : Int)
  | deadLetter (jobId : JobId)
  | popDlq
  -- idempotency.ts
  | setSlotNx (key : String)
  | getSlot (key : String)
  | setSlot (key : String) (jobId : JobId)
  | delSlot (key : String)
  -- circuit.ts and ratelimit.ts
  | checkCircuit (webhookId : WebhookId) (now cooldownMs : Int)
  | recordSuccess (webhookId : WebhookId)
  | recordFailure (webhookId : WebhookId) (threshold now : Int)
  | take (webhookId : WebhookId) (rate burst now cost : Int)
  -- the repositories
  | findJob (id : JobId)
  | insertJob (input : JobInput)
  | updateState (update : StateUpdate)
  | resetForReplay (id : JobId)
  | findWebhook (id : WebhookId)
  | findSecret (id : WebhookId)
  | nextAttemptNumber (jobId : JobId)
  | insertAttempt (record : AttemptRecord)
  deriving DecidableEq

namespace Call

/-- `Math.random()` is a multiple of 2⁻⁵³ below one. -/
abbrev Dice : Type := Fin (2 ^ 53)

def Dice.zero : Dice := ⟨0, by decide⟩

abbrev Reply : Call → Type
  | .now => Int
  | .random => Dice
  | .fetch _ => Nat
  | .responseText => String
  | .push _ => Unit
  | .pushDelayed _ _ => Unit
  | .brpoplpush => Option JobId
  | .zaddLease _ _ => Unit
  | .ack _ => Unit
  | .retryLater _ _ => Unit
  | .deadLetter _ => Unit
  | .popDlq => Option JobId
  | .setSlotNx _ => Bool
  | .getSlot _ => Option SlotValue
  | .setSlot _ _ => Unit
  | .delSlot _ => Unit
  | .checkCircuit _ _ _ => CircuitState
  | .recordSuccess _ => Unit
  | .recordFailure _ _ _ => CircuitState
  | .take _ _ _ _ _ => RateResult
  | .findJob _ => Option Job
  | .insertJob _ => Job
  | .updateState _ => Option Job
  | .resetForReplay _ => Option Job
  | .findWebhook _ => Option Webhook
  | .findSecret _ => Option String
  | .nextAttemptNumber _ => Nat
  | .insertAttempt _ => Unit

/-- The calls to a store, which can fail on their own; the clock and the dice
cannot, and a failing `fetch` answers with its error. -/
def onStore : Call → Bool
  | .now | .random | .fetch _ | .responseText => false
  | _ => true

end Call

/-- An `async` function of the source. -/
abbrev Async := Program Call Call.Reply AppError

/-- `await` of one call. -/
abbrev await (call : Call) : Async call.Reply :=
  Program.perform call

structure Store where
  redis : Redis
  db : Postgres

/-- What the environment contributes to a call: the caller's clock (also
Postgres' `now()`), the dice, the generated UUID, and the endpoint's answer with
the number of times that `fetch` has sent the request again to get it (it
follows redirects, and repeats a request that is answered with 421). -/
structure Choice where
  now : Int := 0
  dice : Call.Dice := .zero
  uuid : JobId := 0
  response : Except AppError Nat := .ok 200
  text : Except AppError String := .ok ""
  resends : Nat := 0

namespace Store

def empty : Store := ⟨.empty, .empty⟩

variable (store : Store)

def withRedis (redis : Redis) : Store := { store with redis := redis }

def withDb (db : Postgres) : Store := { store with db := db }

end Store

/-- One call, executed atomically. -/
def exec (deployment : Deployment) (choice : Choice) :
    (call : Call) → Store → Except AppError call.Reply × Store
  | .now, store => (.ok choice.now, store)
  | .random, store => (.ok choice.dice, store)
  | .fetch request, store =>
      (match deployment.refusal request.url request.eventType with
        | some failure => .error failure
        | none => choice.response, store)
  | .responseText, store => (choice.text, store)
  | .push jobId, store =>
      (.ok (), store.withRedis (store.redis.push jobId))
  | .pushDelayed jobId runAtMs, store =>
      (.ok (), store.withRedis (store.redis.pushDelayed jobId runAtMs))
  | .brpoplpush, store =>
      (.ok store.redis.brpoplpush.1, store.withRedis store.redis.brpoplpush.2)
  | .zaddLease jobId expiry, store =>
      (.ok (), store.withRedis (store.redis.zaddLease jobId expiry))
  | .ack jobId, store =>
      (.ok (), store.withRedis (store.redis.ackScript jobId))
  | .retryLater jobId runAtMs, store =>
      (.ok (), store.withRedis (store.redis.retryScript jobId runAtMs))
  | .deadLetter jobId, store =>
      (.ok (), store.withRedis (store.redis.dlqScript jobId))
  | .popDlq, store =>
      (.ok store.redis.popDlq.1, store.withRedis store.redis.popDlq.2)
  | .setSlotNx key, store =>
      let result := store.redis.setSlotNx key (24 * 60 * 60 * 1000)
      (.ok result.1, store.withRedis result.2)
  | .getSlot key, store => (.ok (store.redis.getSlot key), store)
  | .setSlot key jobId, store =>
      (.ok (), store.withRedis
        (store.redis.setSlot key (.job jobId) (24 * 60 * 60 * 1000)))
  | .delSlot key, store =>
      (.ok (), store.withRedis (store.redis.delSlot key))
  | .checkCircuit webhookId now cooldownMs, store =>
      let result := store.redis.checkCircuit webhookId now cooldownMs
      (.ok result.1, store.withRedis result.2)
  | .recordSuccess webhookId, store =>
      (.ok (), store.withRedis (store.redis.recordSuccess webhookId))
  | .recordFailure webhookId threshold now, store =>
      let result := store.redis.recordFailure webhookId threshold now
      (.ok result.1, store.withRedis result.2)
  | .take webhookId rate burst now cost, store =>
      let result := store.redis.take webhookId rate burst now cost
      (match result.1 with
        | some reply => .ok reply
        | none => .error (.other "value is not an integer or out of range"),
        store.withRedis result.2)
  | .findJob id, store => (.ok (store.db.findJob id), store)
  | .insertJob input, store =>
      let result := store.db.insertJob deployment.jsonb deployment.maxAttempts
        choice.uuid choice.now input
      (result.1, store.withDb result.2)
  | .updateState update, store =>
      let result := store.db.updateState choice.now update
      (result.1, store.withDb result.2)
  | .resetForReplay id, store =>
      let result := store.db.resetForReplay choice.now id
      (.ok result.1, store.withDb result.2)
  | .findWebhook id, store =>
      (.ok ((store.db.webhooks id).map WebhookRow.toWebhook), store)
  | .findSecret id, store =>
      (.ok ((store.db.webhooks id).map WebhookRow.secret), store)
  | .nextAttemptNumber jobId, store =>
      (.ok (store.db.nextAttemptNumber jobId), store)
  | .insertAttempt record, store =>
      let result := store.db.insertAttempt record
      (result.1, store.withDb result.2)

end WebhookDelivery
