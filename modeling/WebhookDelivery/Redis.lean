import WebhookDelivery.Library.SortedSet
import WebhookDelivery.RateLimit
import WebhookDelivery.Circuit

/-!
# The Redis keys and the queue scripts

The five queue structures, the idempotency slots and the per-webhook breaker
and bucket keys, with each command and Lua script as one function on them.
The head of a list is its left end, where `LPUSH` writes.
-/

namespace WebhookDelivery

open SortedSets

/-- The value of an idempotency slot: `PENDING`, or the id of the job. -/
inductive SlotValue
  | pending
  | job (jobId : JobId)
  deriving DecidableEq

structure Redis where
  ready : List JobId
  inflight : List JobId
  leases : SortedSet JobId
  delayed : SortedSet JobId
  dlq : List JobId
  slots : String → Option (Expiring SlotValue)
  circuits : WebhookId → Option (Expiring Breaker)
  buckets : WebhookId → Option (Expiring Bucket)
  /-- The server's clock, by which keys expire. -/
  clock : Int

namespace Redis

def empty : Redis where
  ready := []
  inflight := []
  leases := .empty
  delayed := .empty
  dlq := []
  slots := fun _ => none
  circuits := fun _ => none
  buckets := fun _ => none
  clock := 0

/-! ## Queue commands -/

def push (redis : Redis) (jobId : JobId) : Redis :=
  { redis with ready := jobId :: redis.ready }

def pushDelayed (redis : Redis) (jobId : JobId) (runAtMs : Int) : Redis :=
  { redis with delayed := redis.delayed.insert jobId runAtMs }

/-- `BRPOPLPUSH ready inflight`; `none` when the wait timed out. -/
def brpoplpush (redis : Redis) : Option JobId × Redis :=
  match redis.ready.getLast? with
  | none => (none, redis)
  | some jobId =>
      (some jobId,
        { redis with
          ready := redis.ready.dropLast
          inflight := jobId :: redis.inflight })

def zaddLease (redis : Redis) (jobId : JobId) (expiry : Int) : Redis :=
  { redis with leases := redis.leases.insert jobId expiry }

/-- `LREM inflight 1` and `ZREM leases`, the common head of the three scripts
that end a claim. -/
def release (redis : Redis) (jobId : JobId) : Redis :=
  { redis with
    inflight := redis.inflight.erase jobId
    leases := redis.leases.remove jobId }

def ackScript (redis : Redis) (jobId : JobId) : Redis :=
  redis.release jobId

def retryScript (redis : Redis) (jobId : JobId) (runAtMs : Int) : Redis :=
  (redis.release jobId).pushDelayed jobId runAtMs

def dlqScript (redis : Redis) (jobId : JobId) : Redis :=
  { redis.release jobId with dlq := jobId :: redis.dlq }

/-- The loop body of `PROMOTE_SCRIPT`. -/
def promoteOne (redis : Redis) (jobId : JobId) : Redis :=
  { redis with
    delayed := redis.delayed.remove jobId
    ready := jobId :: redis.ready }

def promoteScript (redis : Redis) (nowMs : Int) (batchSize : Nat) :
    Nat × Redis :=
  let due := redis.delayed.rangeByScore nowMs batchSize
  (due.length, due.foldl promoteOne redis)

/-- The loop body of `REAP_SCRIPT`. -/
def reapOne (redis : Redis) (jobId : JobId) : Redis :=
  { redis with
    leases := redis.leases.remove jobId
    inflight := redis.inflight.erase jobId
    ready := jobId :: redis.ready }

def reapScript (redis : Redis) (nowMs : Int) (batchSize : Nat) :
    List JobId × Redis :=
  let expired := redis.leases.rangeByScore nowMs batchSize
  (expired, expired.foldl reapOne redis)

/-- `RPOP dlq`: the oldest dead-lettered id. -/
def popDlq (redis : Redis) : Option JobId × Redis :=
  match redis.dlq.getLast? with
  | none => (none, redis)
  | some jobId => (some jobId, { redis with dlq := redis.dlq.dropLast })

/-! ## Idempotency slots -/

def getSlot (redis : Redis) (key : String) : Option SlotValue :=
  (redis.slots key).bind (Expiring.read redis.clock)

def setSlot (redis : Redis) (key : String) (value : SlotValue)
    (ttlMs : Int) : Redis :=
  { redis with
    slots := Function.update redis.slots key
      (some ⟨value, some (redis.clock + ttlMs)⟩) }

/-- `SET key PENDING PX ttl NX`; `true` when the slot was free. -/
def setSlotNx (redis : Redis) (key : String) (ttlMs : Int) : Bool × Redis :=
  match redis.getSlot key with
  | none => (true, redis.setSlot key .pending ttlMs)
  | some _ => (false, redis)

def delSlot (redis : Redis) (key : String) : Redis :=
  { redis with slots := Function.update redis.slots key none }

/-! ## Breakers and buckets -/

def breaker (redis : Redis) (webhookId : WebhookId) : Option Breaker :=
  (redis.circuits webhookId).bind (Expiring.read redis.clock)

def setBreaker (redis : Redis) (webhookId : WebhookId) (value : Breaker) :
    Redis :=
  { redis with
    circuits := Function.update redis.circuits webhookId
      (Expiring.pexpire redis.clock Circuit.stateTtlMs value) }

def checkCircuit (redis : Redis) (webhookId : WebhookId)
    (now cooldownMs : Int) : CircuitState × Redis :=
  match Circuit.checkScript now cooldownMs (redis.breaker webhookId) with
  | (state, none) => (state, redis)
  | (state, some breaker) => (state, redis.setBreaker webhookId breaker)

def recordSuccess (redis : Redis) (webhookId : WebhookId) : Redis :=
  redis.setBreaker webhookId
    (Circuit.successScript (redis.breaker webhookId))

def recordFailure (redis : Redis) (webhookId : WebhookId)
    (threshold now : Int) : CircuitState × Redis :=
  let (state, breaker) :=
    Circuit.failureScript threshold now (redis.breaker webhookId)
  (state, redis.setBreaker webhookId breaker)

def bucket (redis : Redis) (webhookId : WebhookId) : Option Bucket :=
  (redis.buckets webhookId).bind (Expiring.read redis.clock)

/-- The bucket is written before `PEXPIRE` runs; with a zero rate the lifetime
is not a number, `PEXPIRE` raises, and the write stays. -/
def take (redis : Redis) (webhookId : WebhookId)
    (rate burst now cost : Int) : Option RateResult × Redis :=
  let (result, bucket) :=
    RateLimit.takeScript rate burst now cost (redis.bucket webhookId)
  if rate = 0 then
    (none, { redis with
      buckets := Function.update redis.buckets webhookId
        (some ⟨bucket, (redis.buckets webhookId).bind
          (Expiring.liveUntil redis.clock)⟩) })
  else
    (some result, { redis with
      buckets := Function.update redis.buckets webhookId
        (Expiring.pexpire redis.clock (RateLimit.ttlMs rate burst) bucket) })

end Redis

end WebhookDelivery
