import WebhookDelivery.TokenBucket
import Mathlib.Tactic.FieldSimp

/-!
# When a throttled call may be repeated

The wait that the script returns is the least whole number of milliseconds
after which the bucket holds what the call asks for.
-/

namespace WebhookDelivery

namespace RateLimit

variable {rate burst now cost : Int} {bucket : Bucket}

/-- The script on a stored bucket, for any cost. -/
theorem takeScript_some (rate burst now cost : Int) (bucket : Bucket) :
    takeScript rate burst now cost (some bucket) =
      if (cost : ℚ) ≤ refilled rate burst now bucket then
        (⟨true, 0⟩, ⟨refilled rate burst now bucket - cost, now⟩)
      else
        (⟨false, Int.ceil
            ((cost - refilled rate burst now bucket) / rate * 1000)⟩,
          ⟨refilled rate burst now bucket, now⟩) :=
  rfl

/-- The script leaves no debt. -/
theorem nonneg_takeScript (fast : 0 ≤ rate) (roomy : 0 ≤ burst)
    (level : 0 ≤ bucket.tokens) (now cost : Int) :
    0 ≤ (takeScript rate burst now cost (some bucket)).2.tokens := by
  rw [takeScript_some]
  split
  next enough => exact sub_nonneg.mpr enough
  next short => exact refilled_nonneg fast roomy now level

/-- A deficit is made up for after its wait, and not before. -/
theorem wait_le_iff (fast : 0 < rate) (level : ℚ) (cost elapsed : Int) :
    Int.ceil ((cost - level) / rate * 1000) ≤ elapsed ↔
      (cost : ℚ) ≤ level + (elapsed / 1000 : ℚ) * rate := by
  have speed : (0 : ℚ) < rate := Int.cast_pos.mpr fast
  rw [Int.ceil_le]
  have scaled : (cost - level) / rate * 1000 ≤ (elapsed : ℚ) ↔
      cost - level ≤ elapsed / 1000 * rate := by
    rw [div_mul_eq_mul_div, div_le_iff₀ speed]
    constructor
    · intro short
      linarith
    · intro short
      linarith
  rw [scaled]
  constructor
  · intro short
    linarith
  · intro enough
    linarith

/-- When a call that found too few tokens would find enough. -/
theorem enough_iff (fast : 0 < rate) (roomy : cost ≤ burst) {tokens : ℚ}
    {time : Int} (ordered : now ≤ time) :
    (cost : ℚ) ≤ refilled rate burst time ⟨tokens, now⟩ ↔
      Int.ceil ((cost - tokens) / rate * 1000) ≤ time - now := by
  have asked : (cost : ℚ) ≤ burst := Int.cast_le.mpr roomy
  have elapsed : max 0 (time - now) = time - now := by omega
  rw [wait_le_iff fast]
  unfold refilled
  simp only [elapsed, le_min_iff, asked, true_and]

/-- A call that is denied has to wait. -/
theorem wait_pos (fast : 0 < rate) {tokens : ℚ} (short : tokens < cost) :
    0 < Int.ceil ((cost - tokens) / rate * 1000) := by
  have speed : (0 : ℚ) < rate := Int.cast_pos.mpr fast
  have deficit : 0 < cost - tokens := sub_pos.mpr short
  exact Int.ceil_pos.mpr (by positivity)

theorem refilled_full (rate burst now : Int) :
    refilled rate burst now ⟨burst, now⟩ = burst := by
  simp [refilled]

/-- The wait for a level that is not negative is over before the key
expires. -/
theorem wait_lt_ttlMs (fast : 0 < rate) {level : ℚ} (nonneg : 0 ≤ level)
    (roomy : cost ≤ burst) :
    Int.ceil ((cost - level) / rate * 1000) < ttlMs rate burst := by
  have speed : (0 : ℚ) < rate := Int.cast_pos.mpr fast
  have asked : (cost : ℚ) ≤ burst := Int.cast_le.mpr roomy
  have deficit : (cost - level) / rate * 1000 ≤ (burst : ℚ) / rate * 1000 := by
    gcongr
    linarith
  have waits := Int.ceil_le_ceil deficit
  unfold ttlMs
  omega

end RateLimit

namespace Redis

open RateLimit

/-- The states that calls of `take` lead to, of whatever cost and by whatever
clocks, with anything else happening in between. -/
inductive Reached (webhookId : WebhookId) (rate burst : Int) : Redis → Prop
  | unseen {redis : Redis} (unseen : redis.buckets webhookId = none) :
      Reached webhookId rate burst redis
  | taken {redis : Redis} (reached : Reached webhookId rate burst redis)
      (now : Int) {cost : Int} (positive : 1 ≤ cost) :
      Reached webhookId rate burst (redis.take webhookId rate burst now cost).2
  | elsewhere {redis other : Redis}
      (reached : Reached webhookId rate burst redis)
      (same : other.buckets webhookId = redis.buckets webhookId) :
      Reached webhookId rate burst other

variable {webhookId : WebhookId} {rate burst : Int} {redis : Redis}

/-- The bucket the script finds: the stored one, or a full one. -/
def found (redis : Redis) (webhookId : WebhookId) (burst now : Int) : Bucket :=
  (redis.bucket webhookId).getD ⟨burst, now⟩

theorem take_eq (fast : 0 < rate) (roomy : 0 ≤ burst) (now cost : Int) :
    redis.take webhookId rate burst now cost =
      (some (takeScript rate burst now cost
          (some (redis.found webhookId burst now))).1,
        { redis with
          buckets := Function.update redis.buckets webhookId
            (some ⟨(takeScript rate burst now cost
                (some (redis.found webhookId burst now))).2,
              some (redis.clock + ttlMs rate burst)⟩) }) := by
  have nonzero : rate ≠ 0 := by omega
  have script : takeScript rate burst now cost (redis.bucket webhookId) =
      takeScript rate burst now cost
        (some (redis.found webhookId burst now)) := by
    unfold found
    cases redis.bucket webhookId with
    | none => exact takeScript_none rate burst now cost
    | some bucket => rfl
  simp only [take, script, nonzero, if_false, Expiring.pexpire,
    ttlMs_pos fast roomy, if_true]

/-- A bucket that is read is the stored one. -/
theorem stored_of_bucket {bucket : Bucket}
    (there : redis.bucket webhookId = some bucket) :
    ∃ entry, redis.buckets webhookId = some entry ∧ entry.value = bucket := by
  unfold Redis.bucket at there
  obtain ⟨entry, stored, live⟩ := Option.bind_eq_some_iff.mp there
  refine ⟨entry, stored, ?_⟩
  unfold Expiring.read at live
  split at live
  · cases live
    rfl
  · split at live
    · cases live
      rfl
    · cases live

theorem nonneg_found (roomy : 0 ≤ burst) (now : Int)
    (level : ∀ entry, redis.buckets webhookId = some entry →
      0 ≤ entry.value.tokens) :
    0 ≤ (redis.found webhookId burst now).tokens := by
  unfold found
  cases there : redis.bucket webhookId with
  | none => exact Int.cast_nonneg roomy
  | some bucket =>
      obtain ⟨entry, stored, rfl⟩ := stored_of_bucket there
      exact level entry stored

/-- No stored bucket is in debt. -/
theorem Reached.level (fast : 0 < rate) (roomy : 0 ≤ burst)
    (reached : Reached webhookId rate burst redis) :
    ∀ entry, redis.buckets webhookId = some entry →
      0 ≤ entry.value.tokens := by
  induction reached with
  | unseen unseen =>
      intro entry stored
      rw [unseen] at stored
      cases stored
  | @taken redis _ now cost _ ih =>
      intro entry stored
      rw [take_eq fast roomy] at stored
      simp only [Function.update_self, Option.some.injEq] at stored
      subst stored
      exact nonneg_takeScript fast.le roomy (nonneg_found roomy now ih) now cost
  | elsewhere _ same ih =>
      intro entry stored
      exact ih entry (same ▸ stored)

/-- What the script finds in a bucket it wrote before: the bucket written, or
a full one once the key has expired. -/
theorem found_of_stored {later : Redis} {bucket : Bucket} {expiry : Int}
    (stored : later.buckets webhookId = some ⟨bucket, some expiry⟩)
    (time : Int) :
    later.found webhookId burst time =
      if later.clock < expiry then bucket else ⟨burst, time⟩ := by
  unfold found Redis.bucket
  rw [stored]
  simp only [Option.bind_some, Expiring.read]
  split <;> rfl

end Redis

/-- For a bucket in any state that calls can lead to, the wait that a denied
call is told is exact: repeated after it the call is let through, whether or
not the key has expired in between, and repeated before that it is denied. -/
theorem retry_after_exact {redis : Redis} (webhookId : WebhookId)
    {rate burst cost : Int} (fast : 1 ≤ rate) (positive : 1 ≤ cost)
    (roomy : cost ≤ burst) (reached : Redis.Reached webhookId rate burst redis)
    {now wait : Int}
    (denied : (redis.take webhookId rate burst now cost).1 =
      some ⟨false, wait⟩)
    (later : Redis)
    (untouched : later.buckets webhookId =
      (redis.take webhookId rate burst now cost).2.buckets webhookId)
    (time : Int) :
    (now + wait ≤ time →
      (later.take webhookId rate burst time cost).1 = some ⟨true, 0⟩) ∧
    (now ≤ time → time < now + wait →
      later.clock - redis.clock ≤ time - now →
        ∃ left, (later.take webhookId rate burst time cost).1 =
          some ⟨false, left⟩) := by
  have speed : 0 < rate := by omega
  have capacity : 0 ≤ burst := by omega
  have level := RateLimit.refilled_nonneg speed.le capacity now
    (Redis.nonneg_found capacity now (reached.level speed capacity))
  rw [Redis.take_eq speed capacity, RateLimit.takeScript_some]
    at denied untouched
  generalize RateLimit.refilled rate burst now
    (redis.found webhookId burst now) = tokens at level denied untouched
  by_cases enough : (cost : ℚ) ≤ tokens
  · simp [enough] at denied
  simp only [enough, if_false, Option.some.injEq, RateResult.mk.injEq,
    true_and, Function.update_self] at denied untouched
  subst denied
  rw [Redis.take_eq speed capacity, RateLimit.takeScript_some,
    Redis.found_of_stored untouched]
  constructor
  · intro waited
    have waits := RateLimit.wait_pos speed (not_le.mp enough)
    rw [if_pos]
    split
    · exact (RateLimit.enough_iff speed roomy (by omega)).mpr (by omega)
    · exact (RateLimit.refilled_full rate burst time).symm ▸
        Int.cast_le.mpr roomy
  · intro ordered early agrees
    have lives := RateLimit.wait_lt_ttlMs speed level roomy
    have short : ¬(cost : ℚ) ≤
        RateLimit.refilled rate burst time ⟨tokens, now⟩ := by
      rw [RateLimit.enough_iff speed roomy ordered]
      omega
    have there : later.clock < redis.clock + RateLimit.ttlMs rate burst := by
      omega
    rw [if_pos there, if_neg short]
    exact ⟨_, rfl⟩

theorem retry_after_exact_drained :
    let spent : Redis :=
      ((Redis.empty.take 1 3 2 0 1).2.take 1 3 2 0 1).2
    let told : Redis := (spent.take 1 3 2 0 1).2
    (spent.take 1 3 2 0 1).1 = some ⟨false, 334⟩ ∧
      (({ told with clock := 334 } : Redis).take 1 3 2 334 1).1 =
        some ⟨true, 0⟩ ∧
      ∃ left, (({ told with clock := 333 } : Redis).take 1 3 2 333 1).1 =
        some ⟨false, left⟩ := by
  intro spent told
  have denied : (spent.take 1 3 2 0 1).1 = some ⟨false, 334⟩ := by
    decide +kernel
  have reached : Redis.Reached 1 3 2 spent :=
    .taken (.taken (.unseen rfl) 0 le_rfl) 0 le_rfl
  refine ⟨denied, ?_, ?_⟩
  · exact (retry_after_exact 1 (by decide) (by decide) (by decide) reached
      denied { told with clock := 334 } rfl 334).1 (by decide)
  · exact (retry_after_exact 1 (by decide) (by decide) (by decide) reached
      denied { told with clock := 333 } rfl 333).2 (by decide) (by decide)
      (by decide)

end WebhookDelivery
