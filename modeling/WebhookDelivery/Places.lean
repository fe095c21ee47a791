import WebhookDelivery.Calls

/-!
# Where a job id is

The queue scripts move single ids between five structures.  For one id, all
that matters is how often it occurs in each; every call is a function on these
occurrence counts.
-/

namespace WebhookDelivery

open SortedSets

/-- Occurrences of one job id in the queue structures. -/
structure Places where
  ready : Nat
  inflight : Nat
  leases : Nat
  delayed : Nat
  dlq : Nat
  deriving DecidableEq

namespace Places

/-- Copies of the id on the four structures that hand it on. -/
def copies (places : Places) : Nat :=
  places.ready + places.inflight + places.delayed + places.dlq

/-- `LREM inflight 1` and `ZREM leases`. -/
def release (places : Places) : Places :=
  { places with inflight := places.inflight - 1, leases := 0 }

end Places

/-- How a call that took effect moves the job `jobId`. -/
def Call.moves (jobId : JobId) (places : Places) :
    (call : Call) → Except AppError call.Reply → Places
  | .push id, _ =>
      if id = jobId then { places with ready := places.ready + 1 }
      else places
  | .pushDelayed id _, _ =>
      if id = jobId then { places with delayed := 1 } else places
  | .brpoplpush, .ok (some id) =>
      if id = jobId then
        { places with
          ready := places.ready - 1, inflight := places.inflight + 1 }
      else places
  | .zaddLease id _, _ =>
      if id = jobId then { places with leases := 1 } else places
  | .ack id, _ => if id = jobId then places.release else places
  | .retryLater id _, _ =>
      if id = jobId then { places.release with delayed := 1 } else places
  | .deadLetter id, _ =>
      if id = jobId then { places.release with dlq := places.dlq + 1 }
      else places
  | .popDlq, .ok (some id) =>
      if id = jobId then { places with dlq := places.dlq - 1 } else places
  | _, _ => places

namespace Call

variable {jobId : JobId} {places : Places} {call : Call}
  {outcome : Except AppError call.Reply}

/-- An id gets to `delayed` by one of two commands. -/
theorem delayed_of_moves (delayed : (call.moves jobId places outcome).delayed = 1) :
    places.delayed = 1 ∨ (∃ runAtMs, call = .pushDelayed jobId runAtMs) ∨
      ∃ runAtMs, call = .retryLater jobId runAtMs := by
  unfold moves at delayed
  split at delayed <;> first
    | exact .inl delayed
    | split at delayed <;> simp_all [Places.release]

/-- An id gets to `dlq` by one script. -/
theorem dlq_of_moves (dead : 0 < (call.moves jobId places outcome).dlq) :
    0 < places.dlq ∨ call = .deadLetter jobId := by
  unfold moves at dead
  split at dead <;> first
    | exact .inl dead
    | split at dead <;> simp_all [Places.release] <;> omega

end Call

namespace Redis

def places (redis : Redis) (jobId : JobId) : Places where
  ready := redis.ready.count jobId
  inflight := redis.inflight.count jobId
  leases := (redis.leases.score? jobId).isSome.toNat
  delayed := (redis.delayed.score? jobId).isSome.toNat
  dlq := redis.dlq.count jobId

theorem delayed_le_one (redis : Redis) (jobId : JobId) :
    (redis.places jobId).delayed ≤ 1 :=
  Bool.toNat_le _

theorem leases_eq_one_iff (redis : Redis) (jobId : JobId) :
    (redis.places jobId).leases = 1 ↔
      (redis.leases.score? jobId).isSome :=
  Bool.toNat_eq_one

theorem delayed_eq_one_iff (redis : Redis) (jobId : JobId) :
    (redis.places jobId).delayed = 1 ↔
      (redis.delayed.score? jobId).isSome :=
  Bool.toNat_eq_one

private theorem count_of_getLast? {list : List JobId} {last : JobId}
    (found : list.getLast? = some last) (jobId : JobId) :
    list.count jobId =
      list.dropLast.count jobId + if last = jobId then 1 else 0 := by
  have rebuilt := List.dropLast_append_getLast? last found
  conv_lhs => rw [← rebuilt]
  rw [List.count_append, List.count_singleton]
  simp [beq_iff_eq]

theorem places_brpoplpush (redis : Redis) (jobId : JobId) :
    redis.brpoplpush.2.places jobId =
      Call.moves jobId (redis.places jobId) .brpoplpush
        (.ok redis.brpoplpush.1) := by
  unfold brpoplpush
  cases last : redis.ready.getLast? with
  | none => rfl
  | some popped =>
      have count := count_of_getLast? last jobId
      by_cases same : popped = jobId
      · simp only [same, if_true] at count
        simp [Call.moves, places, same, count]
      · simp only [same, if_false] at count
        simp [Call.moves, places, same, count]

theorem places_popDlq (redis : Redis) (jobId : JobId) :
    redis.popDlq.2.places jobId =
      Call.moves jobId (redis.places jobId) .popDlq
        (.ok redis.popDlq.1) := by
  unfold popDlq
  cases last : redis.dlq.getLast? with
  | none => rfl
  | some popped =>
      have count := count_of_getLast? last jobId
      by_cases same : popped = jobId
      · simp only [same, if_true] at count
        simp [Call.moves, places, same, count]
      · simp only [same, if_false] at count
        simp [Call.moves, places, same, count]

theorem places_push (redis : Redis) (jobId id : JobId) :
    (redis.push id).places jobId =
      if id = jobId then
        { redis.places jobId with ready := (redis.places jobId).ready + 1 }
      else redis.places jobId := by
  by_cases same : id = jobId <;> simp [push, places, same]

theorem places_pushDelayed (redis : Redis) (jobId id : JobId)
    (runAtMs : Int) :
    (redis.pushDelayed id runAtMs).places jobId =
      if id = jobId then { redis.places jobId with delayed := 1 }
      else redis.places jobId := by
  by_cases same : id = jobId
  · simp [pushDelayed, places, same]
  · simp [pushDelayed, places, same, Ne.symm same]

theorem places_zaddLease (redis : Redis) (jobId id : JobId) (expiry : Int) :
    (redis.zaddLease id expiry).places jobId =
      if id = jobId then { redis.places jobId with leases := 1 }
      else redis.places jobId := by
  by_cases same : id = jobId
  · simp [zaddLease, places, same]
  · simp [zaddLease, places, same, Ne.symm same]

theorem places_release (redis : Redis) (jobId id : JobId) :
    (redis.release id).places jobId =
      if id = jobId then (redis.places jobId).release
      else redis.places jobId := by
  by_cases same : id = jobId
  · simp [release, places, Places.release, same]
  · simp [release, places, same, Ne.symm same]

theorem places_retryScript (redis : Redis) (jobId id : JobId)
    (runAtMs : Int) :
    (redis.retryScript id runAtMs).places jobId =
      if id = jobId then
        { (redis.places jobId).release with delayed := 1 }
      else redis.places jobId := by
  unfold retryScript
  rw [places_pushDelayed, places_release]
  by_cases same : id = jobId <;> simp [same]

theorem places_dlqScript (redis : Redis) (jobId id : JobId) :
    (redis.dlqScript id).places jobId =
      if id = jobId then
        { (redis.places jobId).release with
          dlq := (redis.places jobId).dlq + 1 }
      else redis.places jobId := by
  by_cases same : id = jobId
  · simp [dlqScript, release, places, Places.release, same]
  · simp [dlqScript, release, places, same, Ne.symm same]

/-! ## The scheduler's scripts -/

theorem places_promoteOne (redis : Redis) (jobId id : JobId) :
    (redis.promoteOne id).places jobId =
      if id = jobId then
        { redis.places jobId with
          delayed := 0, ready := (redis.places jobId).ready + 1 }
      else redis.places jobId := by
  by_cases same : id = jobId
  · simp [promoteOne, places, same]
  · simp [promoteOne, places, same, Ne.symm same]

private theorem places_foldl_promoteOne (due : List JobId) (redis : Redis)
    (jobId : JobId) (distinct : due.Nodup) :
    (due.foldl promoteOne redis).places jobId =
      if jobId ∈ due then
        { redis.places jobId with
          delayed := 0, ready := (redis.places jobId).ready + 1 }
      else redis.places jobId := by
  induction due generalizing redis with
  | nil => simp
  | cons id due ih =>
      rw [List.nodup_cons] at distinct
      rw [List.foldl_cons, ih _ distinct.2, places_promoteOne]
      by_cases same : id = jobId
      · subst same
        simp [distinct.1]
      · simp [same, Ne.symm same]

/-- One run of `PROMOTE_SCRIPT` moves the listed ids from `delayed` to
`ready`, and no other. -/
theorem places_promoteScript (redis : Redis) (nowMs : Int) (batchSize : Nat)
    (jobId : JobId) :
    (redis.promoteScript nowMs batchSize).2.places jobId =
      if jobId ∈ redis.delayed.rangeByScore nowMs batchSize then
        { redis.places jobId with
          delayed := 0, ready := (redis.places jobId).ready + 1 }
      else redis.places jobId :=
  places_foldl_promoteOne _ _ _ (redis.delayed.rangeByScore_nodup _ _)

theorem places_reapOne (redis : Redis) (jobId id : JobId) :
    (redis.reapOne id).places jobId =
      if id = jobId then
        { (redis.places jobId).release with
          ready := (redis.places jobId).ready + 1 }
      else redis.places jobId := by
  by_cases same : id = jobId
  · simp [reapOne, places, Places.release, same]
  · simp [reapOne, places, same, Ne.symm same]

private theorem places_foldl_reapOne (expired : List JobId) (redis : Redis)
    (jobId : JobId) (distinct : expired.Nodup) :
    (expired.foldl reapOne redis).places jobId =
      if jobId ∈ expired then
        { (redis.places jobId).release with
          ready := (redis.places jobId).ready + 1 }
      else redis.places jobId := by
  induction expired generalizing redis with
  | nil => simp
  | cons id expired ih =>
      rw [List.nodup_cons] at distinct
      rw [List.foldl_cons, ih _ distinct.2, places_reapOne]
      by_cases same : id = jobId
      · subst same
        simp [distinct.1]
      · simp [same, Ne.symm same]

/-- One run of `REAP_SCRIPT` releases the listed ids and returns them to
`ready`, and no other. -/
theorem places_reapScript (redis : Redis) (nowMs : Int) (batchSize : Nat)
    (jobId : JobId) :
    (redis.reapScript nowMs batchSize).2.places jobId =
      if jobId ∈ redis.leases.rangeByScore nowMs batchSize then
        { (redis.places jobId).release with
          ready := (redis.places jobId).ready + 1 }
      else redis.places jobId :=
  places_foldl_reapOne _ _ _ (redis.leases.rangeByScore_nodup _ _)

/-- Promoted ids lose their score. -/
theorem score_promoteScript (redis : Redis) (nowMs : Int) (batchSize : Nat)
    (jobId : JobId) :
    (redis.promoteScript nowMs batchSize).2.delayed.score? jobId =
      if jobId ∈ redis.delayed.rangeByScore nowMs batchSize then none
      else redis.delayed.score? jobId := by
  simp only [promoteScript]
  generalize redis.delayed.rangeByScore nowMs batchSize = due
  induction due generalizing redis with
  | nil => simp
  | cons id due ih =>
      rw [List.foldl_cons, ih]
      by_cases same : jobId = id <;> simp [promoteOne, same]

theorem delayed_reapScript (redis : Redis) (nowMs : Int) (batchSize : Nat) :
    (redis.reapScript nowMs batchSize).2.delayed = redis.delayed := by
  simp only [reapScript]
  generalize redis.leases.rangeByScore nowMs batchSize = expired
  induction expired generalizing redis with
  | nil => rfl
  | cons id expired ih => exact ih (redis.reapOne id)

theorem delayed_of_mem_range {redis : Redis} {nowMs : Int} {batchSize : Nat}
    {jobId : JobId}
    (due : jobId ∈ redis.delayed.rangeByScore nowMs batchSize) :
    (redis.places jobId).delayed = 1 := by
  obtain ⟨score, found, _⟩ := SortedSet.score?_of_mem_rangeByScore due
  simp [places, found]

theorem leased_of_mem_range {redis : Redis} {nowMs : Int} {batchSize : Nat}
    {jobId : JobId}
    (expired : jobId ∈ redis.leases.rangeByScore nowMs batchSize) :
    (redis.places jobId).leases = 1 := by
  obtain ⟨score, found, _⟩ := SortedSet.score?_of_mem_rangeByScore expired
  simp [places, found]

end Redis

/-- Every call moves every id as `Call.moves` says. -/
theorem exec_places (deployment : Deployment) (choice : Choice)
    (call : Call) (store : Store) (jobId : JobId) :
    (exec deployment choice call store).2.redis.places jobId =
      call.moves jobId (store.redis.places jobId)
        (exec deployment choice call store).1 := by
  cases call with
  | push id => exact Redis.places_push _ _ _
  | pushDelayed id runAtMs => exact Redis.places_pushDelayed _ _ _ _
  | brpoplpush => exact Redis.places_brpoplpush _ _
  | zaddLease id expiry => exact Redis.places_zaddLease _ _ _ _
  | ack id => exact Redis.places_release _ _ _
  | retryLater id runAtMs => exact Redis.places_retryScript _ _ _ _
  | deadLetter id => exact Redis.places_dlqScript _ _ _
  | popDlq => exact Redis.places_popDlq _ _
  | setSlotNx key =>
      simp only [exec, Redis.setSlotNx, Call.moves]
      split <;> rfl
  | checkCircuit webhookId now cooldownMs =>
      simp only [exec, Redis.checkCircuit, Call.moves]
      split <;> rfl
  | take webhookId rate burst now cost =>
      simp only [exec, Redis.take, Call.moves]
      split <;> rfl
  | _ => rfl

/-- The score of a job in `delayed` after a call. -/
def Call.schedules (jobId : JobId) (score : Option Int) : Call → Option Int
  | .pushDelayed id runAtMs | .retryLater id runAtMs =>
      if id = jobId then some runAtMs else score
  | _ => score

theorem exec_score (deployment : Deployment) (choice : Choice) (call : Call)
    (store : Store) (jobId : JobId) :
    (exec deployment choice call store).2.redis.delayed.score? jobId =
      call.schedules jobId (store.redis.delayed.score? jobId) := by
  cases call with
  | pushDelayed id runAtMs =>
      simp [exec, Store.withRedis, Redis.pushDelayed, Call.schedules, eq_comm]
  | retryLater id runAtMs =>
      simp [exec, Store.withRedis, Redis.retryScript, Redis.release,
        Redis.pushDelayed, Call.schedules, eq_comm]
  | brpoplpush =>
      simp only [exec, Redis.brpoplpush, Call.schedules]
      split <;> rfl
  | popDlq =>
      simp only [exec, Redis.popDlq, Call.schedules]
      split <;> rfl
  | setSlotNx key =>
      simp only [exec, Redis.setSlotNx, Call.schedules]
      split <;> rfl
  | checkCircuit webhookId now cooldownMs =>
      simp only [exec, Redis.checkCircuit, Call.schedules]
      split <;> rfl
  | take webhookId rate burst now cost =>
      simp only [exec, Redis.take, Call.schedules]
      split <;> rfl
  | _ => rfl

end WebhookDelivery
