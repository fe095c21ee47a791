import WebhookDelivery.RetryAfter

/-!
# The limiter over all configurations

The configuration loader accepts every integer for the rate and for the
capacity.  The limiter works on those with a positive rate and a capacity above
the negated rate whose quotient gives a lifetime that `PEXPIRE` takes; on each
of the others some short sequence of calls goes wrong.
-/

namespace WebhookDelivery

/-- What calls at the given times are promised: the script divides by no zero,
keys get a positive lifetime, no longer than the longest that `PEXPIRE` takes,
every call is answered with a wait that is not negative, and no window of time
lets through more than an ideal bucket could. -/
structure Redis.LimitsWell (redis : Redis) (webhookId : WebhookId)
    (longest rate burst : Int) (times : List Int) : Prop where
  divides : times ≠ [] → rate ≠ 0
  lasting : times ≠ [] → 0 < RateLimit.ttlMs rate burst
  expressible : times ≠ [] → RateLimit.ttlMs rate burst ≤ longest
  answered : ∀ reply ∈ redis.takes webhookId rate burst
    (times.map fun time => ⟨time, time⟩),
      ∃ result, reply = some result ∧ 0 ≤ result.retryAfterMs
  bounded : ∀ start stop, start ≤ stop →
    (RateLimit.admittedWithin start stop times
      (redis.takes webhookId rate burst
        (times.map fun time => ⟨time, time⟩)) : ℚ) ≤
      (max 0 burst : Int) + (max 0 rate : Int) * (stop - start) / 1000

/-- A configuration with which every sequence of calls to a new bucket at
nondecreasing times goes well. -/
def RateLimit.WellDefined (longest rate burst : Int) : Prop :=
  ∀ (redis : Redis) (webhookId : WebhookId) (times : List Int),
    redis.buckets webhookId = none → times.Pairwise (· ≤ ·) →
      redis.LimitsWell webhookId longest rate burst times

/-- Settings that are safe integers of JavaScript, so that the script's doubles
tell each of them from its neighbours. -/
structure RateLimit.Settings where
  rate : Int
  burst : Int
  safeRate : |rate| < 2 ^ 53
  safeBurst : |burst| < 2 ^ 53

namespace RateLimit

variable {longest rate burst : Int}

theorem ttlMs_pos_iff (fast : 0 < rate) :
    0 < ttlMs rate burst ↔ -rate < burst := by
  have speed : (0 : ℚ) < rate := Int.cast_pos.mpr fast
  have whole : 0 < ttlMs rate burst ↔
      (-1000 : Int) < Int.ceil ((burst : ℚ) / rate * 1000) := by
    unfold ttlMs
    omega
  rw [whole, Int.lt_ceil, ← Int.cast_lt (R := ℚ)]
  have scaled : ((-1000 : Int) : ℚ) < burst / rate * 1000 ↔
      (-1 : ℚ) < burst / rate := by
    push_cast
    constructor <;> intro bound <;> linarith
  rw [scaled, lt_div_iff₀ speed]
  push_cast
  rw [neg_one_mul]

theorem ttlMs_le_iff (fast : 0 < rate) :
    ttlMs rate burst ≤ longest ↔ 1000 * burst ≤ (longest - 1000) * rate := by
  have speed : (0 : ℚ) < rate := Int.cast_pos.mpr fast
  have whole : ttlMs rate burst ≤ longest ↔
      Int.ceil ((burst : ℚ) / rate * 1000) ≤ longest - 1000 := by
    unfold ttlMs
    omega
  rw [whole, Int.ceil_le, ← Int.cast_le (R := ℚ), div_mul_eq_mul_div,
    div_le_iff₀ speed]
  push_cast
  rw [mul_comm (burst : ℚ)]

/-- A lifetime with a negative rate and no capacity is long. -/
theorem thousand_le_ttlMs (slow : rate < 0) (none : burst ≤ 0) :
    1000 ≤ ttlMs rate burst := by
  have speed : (rate : ℚ) ≤ 0 := Int.cast_nonpos.mpr slow.le
  have capacity : (burst : ℚ) ≤ 0 := Int.cast_nonpos.mpr none
  have := Int.ceil_nonneg (mul_nonneg (div_nonneg_of_nonpos capacity speed)
    (by norm_num : (0 : ℚ) ≤ 1000))
  unfold ttlMs
  omega

/-- With a positive rate no reply tells a negative wait. -/
theorem nonneg_wait (fast : 0 < rate) (now : Int) (state : Option Bucket) :
    0 ≤ (takeScript rate burst now 1 state).1.retryAfterMs := by
  have stored : ∀ bucket, 0 ≤
      (takeScript rate burst now 1 (some bucket)).1.retryAfterMs := by
    intro bucket
    rw [takeScript_some]
    split
    next enough => exact le_rfl
    next short => exact (wait_pos fast (not_le.mp short)).le
  cases state with
  | none => exact takeScript_none rate burst now 1 ▸ stored _
  | some bucket => exact stored bucket

/-- A bucket without capacity lets nothing through. -/
theorem denied_of_capacity (none : burst < 1) (now : Int)
    (state : Option Bucket) :
    (takeScript rate burst now 1 state).1.allowed = false := by
  have stored : ∀ bucket,
      (takeScript rate burst now 1 (some bucket)).1.allowed = false := by
    intro bucket
    have atMost := refilled_le rate burst now bucket
    have capacity : (burst : ℚ) < 1 := by exact_mod_cast none
    rcases takeScript_cases rate burst now bucket with
      ⟨enough, replied⟩ | ⟨short, retryAfterMs, replied⟩
    · linarith
    · rw [replied]
  cases state with
  | none => exact takeScript_none rate burst now 1 ▸ stored _
  | some bucket => exact stored bucket

end RateLimit

namespace Redis

open RateLimit

variable {webhookId : WebhookId} {longest rate burst : Int}

theorem takeAt_fst (nonzero : rate ≠ 0) (redis : Redis) (call : TakeCall) :
    ∃ state, (redis.takeAt webhookId rate burst call).1 =
      some (takeScript rate burst call.now 1 state).1 := by
  refine ⟨({ redis with clock := call.clock } : Redis).bucket webhookId, ?_⟩
  simp only [takeAt, take, nonzero, if_false]

/-- What holds of every reply of the script holds of the replies to a sequence
of calls. -/
theorem takes_forall (nonzero : rate ≠ 0) {property : RateResult → Prop}
    (script : ∀ now state, property (takeScript rate burst now 1 state).1)
    (calls : List TakeCall) (redis : Redis) :
    ∀ reply ∈ redis.takes webhookId rate burst calls,
      ∃ result, reply = some result ∧ property result := by
  induction calls generalizing redis with
  | nil => simp [takes]
  | cons call calls ih =>
      intro reply member
      rcases List.mem_cons.mp member with rfl | later
      · obtain ⟨state, replied⟩ := takeAt_fst nonzero redis call
        exact ⟨_, replied, script call.now state⟩
      · exact ih _ reply later

theorem takes_append (first second : List TakeCall) (redis : Redis) :
    redis.takes webhookId rate burst (first ++ second) =
      redis.takes webhookId rate burst first ++
        (redis.afterTakes webhookId rate burst first).takes webhookId rate
          burst second := by
  induction first generalizing redis with
  | nil => rfl
  | cons call calls ih =>
      simp only [List.cons_append, takes, ih]
      rfl

theorem admittedWithin_denied (start stop : Int) (times : List Int)
    {replies : List (Option RateResult)}
    (denied : ∀ reply ∈ replies, ∃ result, reply = some result ∧
      result.allowed = false) :
    admittedWithin start stop times replies = 0 := by
  rw [admittedWithin, List.countP_eq_zero]
  intro call member
  obtain ⟨result, replied, not⟩ := denied _ (List.of_mem_zip member).2
  simp [replied, not]

/-- The configurations on which the limiter works. -/
theorem limitsWell (fast : 1 ≤ rate) (above : -rate < burst)
    (within : 1000 * burst ≤ (longest - 1000) * rate) (redis : Redis)
    (unseen : redis.buckets webhookId = none) {times : List Int}
    (sorted : times.Pairwise (· ≤ ·)) :
    redis.LimitsWell webhookId longest rate burst times where
  divides := fun _ => by omega
  lasting := fun _ => (ttlMs_pos_iff (by omega)).mpr above
  expressible := fun _ => (ttlMs_le_iff (by omega)).mpr within
  answered := takes_forall (by omega)
    (fun now state => nonneg_wait (by omega) now state) _ redis
  bounded := by
    intro start stop ordered
    have speed : max 0 rate = rate := by omega
    rw [speed]
    rcases le_or_gt 0 burst with roomy | short
    · have holds : redis.Holds webhookId rate burst 0 none := unseen
      have nows : (times.map fun time => (⟨time, time⟩ : TakeCall)).map
          TakeCall.now = times := by
        simp [Function.comp_def]
      have same := (takes_of_current (by omega)
        (ttlMs_pos (by omega) roomy) _ holds
        (current_of_sorted (by omega) roomy times (by simp))).1
      rw [same, nows, max_eq_right roomy]
      exact admittedWithin_takes_le (by omega) roomy ordered sorted
    · rw [admittedWithin_denied start stop times (takes_forall (by omega)
        (fun now state => denied_of_capacity (by omega) now state) _ redis)]
      have window : (0 : ℚ) ≤ stop - start :=
        sub_nonneg.mpr (Int.cast_le.mpr ordered)
      have pace : (0 : ℚ) ≤ rate := Int.cast_nonneg (by omega)
      rw [max_eq_left short.le]
      push_cast
      positivity

/-! ## Configurations on which it does not -/

/-- With a negative rate and no capacity the deficit grows, and the wait told
to the second of two calls is negative. -/
theorem negative_wait (slow : rate < 0) (none : burst ≤ 0) (redis : Redis)
    (unseen : redis.buckets webhookId = Option.none) :
    ¬ redis.LimitsWell webhookId longest rate burst [0, 1] := by
  intro well
  have pace : (rate : ℚ) < 0 := Int.cast_lt_zero.mpr slow
  have capacity : (burst : ℚ) ≤ 0 := Int.cast_nonpos.mpr none
  have long := thousand_le_ttlMs slow none
  have within : (1 : Int) < 0 + ttlMs rate burst := by omega
  have holds : redis.Holds webhookId rate burst 0 Option.none := unseen
  have first := takeScript_some rate burst 0 1 ⟨burst, 0⟩
  rw [refilled_full, if_neg (by push_cast; linarith), ← takeScript_none]
    at first
  have same := (takes_of_current slow.ne (by omega)
    [⟨0, 0⟩, ⟨1, 1⟩] holds ⟨by simp, fun _ _ => .inl within, trivial⟩).1
  have drained : refilled rate burst 1 ⟨burst, 0⟩ = burst + rate / 1000 := by
    unfold refilled
    rw [min_eq_right]
    · norm_num
      ring
    · norm_num
      linarith
  have second := takeScript_some rate burst 1 1 ⟨burst, 0⟩
  rw [drained, if_neg (by push_cast; linarith)] at second
  have replies := well.answered
  simp only [List.map_cons, List.map_nil, same, RateLimit.takes, first,
    second] at replies
  obtain ⟨result, told, nonneg⟩ :=
    replies _ (List.mem_cons_of_mem _ List.mem_cons_self)
  cases told
  have bound : ((-1 : Int) : ℚ) <
      ((1 : Int) - (burst + rate / 1000)) / rate * 1000 :=
    Int.lt_ceil.mp (Int.lt_iff_add_one_le.mpr nonneg)
  have split : (((1 : Int) : ℚ) - (burst + rate / 1000)) / rate * 1000 =
      (1 - burst) / rate * 1000 - 1 := by
    have nonzero := pace.ne
    push_cast
    field_simp
    ring
  have deficit : ((1 : ℚ) - burst) / rate < 0 :=
    div_neg_of_pos_of_neg (by linarith) pace
  rw [split] at bound
  push_cast at bound
  linarith

/-- Calls at one time are let through until the bucket is empty. -/
theorem takes_replicate (nonzero : rate ≠ 0)
    (lasting : 0 < ttlMs rate burst) (level : Nat) {count : Nat}
    (atMost : (level : Int) ≤ burst) (enough : count ≤ level)
    {state : Option Bucket} {redis : Redis}
    (script : takeScript rate burst 0 1 state =
      takeScript rate burst 0 1 (some ⟨level, 0⟩))
    (holds : redis.Holds webhookId rate burst 0 state) :
    redis.takes webhookId rate burst (List.replicate count ⟨0, 0⟩) =
        List.replicate count (some ⟨true, 0⟩) ∧
      ∃ left, (redis.afterTakes webhookId rate burst
        (List.replicate count ⟨0, 0⟩)).Holds webhookId rate burst 0 left := by
  induction count generalizing level state redis with
  | zero => exact ⟨rfl, state, holds⟩
  | succ count ih =>
      have capacity : (level : ℚ) ≤ burst := by exact_mod_cast atMost
      have same : refilled rate burst 0 ⟨level, 0⟩ = level := by
        simp [refilled, capacity]
      have token : ((1 : Int) : ℚ) ≤ level := by
        have := Nat.one_le_of_lt enough
        exact_mod_cast this
      have spent : (level : ℚ) - (1 : Int) = (level - 1 : Nat) := by
        rw [Nat.cast_sub (by omega)]
        push_cast
        rfl
      have replied := takeScript_some rate burst 0 1 ⟨level, 0⟩
      rw [same, if_pos token, spent, ← script] at replied
      have lives : (0 : Int) < 0 + ttlMs rate burst := by omega
      obtain ⟨first, stored⟩ := @takeAt_of_holds webhookId rate burst nonzero
        lasting redis 0 ⟨0, 0⟩ state holds fun _ _ => .inl lives
      simp only [replied] at first stored
      obtain ⟨rest, left, after⟩ :=
        ih (level - 1) (by omega) (by omega) rfl stored
      refine ⟨?_, left, after⟩
      rw [List.replicate_succ, takes, first, rest, List.replicate_succ]

/-- Once the key has expired, a whole token is there again. -/
theorem takeAt_of_expired (nonzero : rate ≠ 0) (roomy : 1 ≤ burst)
    {redis : Redis} {clock : Int} {state : Option Bucket}
    (holds : redis.Holds webhookId rate burst clock state) {call : TakeCall}
    (expired : clock + ttlMs rate burst ≤ call.clock) :
    (redis.takeAt webhookId rate burst call).1 = some ⟨true, 0⟩ := by
  have gone : ({ redis with clock := call.clock } : Redis).bucket webhookId =
      none := by
    unfold Redis.bucket
    rw [holds]
    cases state with
    | none => rfl
    | some bucket => simp [Expiring.read, expired]
  have token : ((1 : Int) : ℚ) ≤ burst := Int.cast_le.mpr roomy
  simp only [takeAt, take, nonzero, if_false, gone]
  rw [takeScript_none, takeScript_some, refilled_full, if_pos token]

/-- With a negative rate the capacity comes back when the key expires. -/
theorem exceeded (slow : rate < 0) (roomy : 1 ≤ burst)
    (lasting : 0 < ttlMs rate burst) (redis : Redis)
    (unseen : redis.buckets webhookId = none) :
    ¬ redis.LimitsWell webhookId longest rate burst
      (List.replicate burst.toNat 0 ++ [ttlMs rate burst]) := by
  intro well
  have whole : ((burst.toNat : Nat) : Int) = burst := by omega
  have full : (⟨(burst.toNat : Nat), 0⟩ : Bucket) = ⟨burst, 0⟩ := by
    rw [← Int.cast_natCast, whole]
  have new : takeScript rate burst 0 1 none =
      takeScript rate burst 0 1 (some ⟨(burst.toNat : Nat), 0⟩) := by
    rw [full, takeScript_none]
  obtain ⟨admits, left, holds⟩ := takes_replicate slow.ne lasting
    burst.toNat whole.le le_rfl new unseen
  have again := @takeAt_of_expired webhookId rate burst slow.ne roomy _ 0 left
    holds ⟨ttlMs rate burst, ttlMs rate burst⟩ (by simp)
  have bound := well.bounded 0 (ttlMs rate burst) lasting.le
  rw [List.map_append, List.map_replicate, takes_append, admits,
    admittedWithin_append (by simp), List.map_singleton, takes, again, takes]
    at bound
  have first : admittedWithin 0 (ttlMs rate burst)
      (List.replicate burst.toNat 0)
      (List.replicate burst.toNat (some ⟨true, 0⟩)) = burst.toNat := by
    simp [admittedWithin, List.countP_replicate, lasting.le]
  have second : admittedWithin 0 (ttlMs rate burst) [ttlMs rate burst]
      [some ⟨true, 0⟩] = 1 := by
    simp [admittedWithin, lasting.le]
  have capacity : max 0 burst = ((burst.toNat : Nat) : Int) := by omega
  rw [first, second, capacity, max_eq_left slow.le] at bound
  push_cast at bound
  linarith

/-- The limiter does not work with any other configuration. -/
theorem fast_of_wellDefined (well : WellDefined longest rate burst) :
    1 ≤ rate := by
  have single := well .empty 0 [0] rfl (by simp)
  have nonzero := single.divides (by simp)
  have lasting := single.lasting (by simp)
  by_contra slow
  have negative : rate < 0 := by omega
  rcases le_or_gt burst 0 with short | roomy
  · exact negative_wait negative short .empty rfl
      (well .empty 0 [0, 1] rfl (by simp))
  · refine exceeded negative roomy lasting .empty rfl
      (well .empty 0 _ rfl ?_)
    rw [List.pairwise_append]
    refine ⟨List.pairwise_replicate.mpr (.inr le_rfl),
      List.pairwise_singleton _ _, ?_⟩
    intro first start second stop
    rw [List.eq_of_mem_replicate start, List.mem_singleton.mp stop]
    exact lasting.le

end Redis

end WebhookDelivery
