import WebhookDelivery.Redis
import Mathlib.Algebra.Order.Field.Rat
import Mathlib.Tactic.Linarith

/-!
# The token bucket over sequences of calls

The script refills lazily and lets the key expire.  Both are invisible as long
as the callers' clocks do not go back: the bucket then behaves like one that is
never dropped, and admits at most what an ideal bucket can.  What it admits in
general is bounded by the distance over which the clock readings go forward.
-/

namespace WebhookDelivery

/-- A call of `take`: the clock of the server when the script runs, and the
caller's clock. -/
structure TakeCall where
  clock : Int
  now : Int
  deriving DecidableEq

/-- The levels a bucket can have. -/
def Bucket.Within (burst : Int) (bucket : Bucket) : Prop :=
  0 ≤ bucket.tokens ∧ bucket.tokens ≤ burst

namespace RateLimit

/-- The replies of a bucket that never expires to calls of cost 1. -/
def takes (rate burst : Int) : List Int → Option Bucket → List RateResult
  | [], _ => []
  | now :: nows, state =>
      let result := takeScript rate burst now 1 state
      result.1 :: takes rate burst nows (some result.2)

/-- The bucket that these calls leave. -/
def afterTakes (rate burst : Int) : List Int → Option Bucket → Option Bucket
  | [], state => state
  | now :: nows, state =>
      afterTakes rate burst nows (some (takeScript rate burst now 1 state).2)

/-- The calls that were let through. -/
def admitted (results : List RateResult) : Nat :=
  results.countP RateResult.allowed

/-- By how much the readings of the clock go forward, all in all. -/
def forward : List Int → Int
  | first :: second :: rest =>
      max 0 (second - first) + forward (second :: rest)
  | _ => 0

/-- The level of a bucket once the script has refilled it. -/
def refilled (rate burst now : Int) (bucket : Bucket) : ℚ :=
  min (burst : ℚ)
    (bucket.tokens + ((max 0 (now - bucket.ts) : Int) / 1000 : ℚ) * rate)

variable {rate burst now : Int} {bucket : Bucket}

/-! ## One call -/

/-- The script lets a call through when a whole token is there. -/
theorem takeScript_cases (rate burst now : Int) (bucket : Bucket) :
    (1 ≤ refilled rate burst now bucket ∧
      takeScript rate burst now 1 (some bucket) =
        (⟨true, 0⟩, ⟨refilled rate burst now bucket - 1, now⟩)) ∨
      refilled rate burst now bucket < 1 ∧
        ∃ retryAfterMs, takeScript rate burst now 1 (some bucket) =
          (⟨false, retryAfterMs⟩, ⟨refilled rate burst now bucket, now⟩) := by
  unfold takeScript refilled
  simp only [Option.getD_some, Int.cast_one]
  split
  next enough => exact .inl ⟨enough, rfl⟩
  next short => exact .inr ⟨not_le.mp short, _, rfl⟩

/-- A new bucket is a full one. -/
theorem takeScript_none (rate burst now cost : Int) :
    takeScript rate burst now cost none =
      takeScript rate burst now cost (some ⟨burst, now⟩) :=
  rfl

/-- The script acts on some bucket, stored or new. -/
theorem takeScript_eq_some (rate now : Int) (roomy : 0 ≤ burst)
    {state : Option Bucket}
    (level : ∀ bucket, state = some bucket → 0 ≤ bucket.tokens) :
    ∃ bucket, takeScript rate burst now 1 state =
        takeScript rate burst now 1 (some bucket) ∧ 0 ≤ bucket.tokens := by
  cases state with
  | none => exact ⟨_, takeScript_none .., Int.cast_nonneg roomy⟩
  | some bucket => exact ⟨bucket, rfl, level bucket rfl⟩

/-- What the script does depends on the level after refilling only. -/
theorem takeScript_congr {other : Bucket} (rate burst now : Int)
    (same : refilled rate burst now bucket = refilled rate burst now other) :
    takeScript rate burst now 1 (some bucket) =
      takeScript rate burst now 1 (some other) := by
  unfold takeScript
  unfold refilled at same
  simp only [Option.getD_some, same]

theorem refilled_le (rate burst now : Int) (bucket : Bucket) :
    refilled rate burst now bucket ≤ burst :=
  min_le_left _ _

theorem refilled_le_add (rate burst now : Int) (bucket : Bucket) :
    refilled rate burst now bucket ≤
      bucket.tokens + rate * (max 0 (now - bucket.ts) : Int) / 1000 := by
  have bound := min_le_right (burst : ℚ)
    (bucket.tokens + ((max 0 (now - bucket.ts) : Int) / 1000 : ℚ) * rate)
  unfold refilled
  linarith

theorem refilled_nonneg (fast : 0 ≤ rate) (roomy : 0 ≤ burst)
    (now : Int) (level : 0 ≤ bucket.tokens) :
    0 ≤ refilled rate burst now bucket := by
  have elapsed : (0 : ℚ) ≤ (max 0 (now - bucket.ts) : Int) :=
    Int.cast_nonneg (le_max_left _ _)
  have speed : (0 : ℚ) ≤ rate := Int.cast_nonneg fast
  have capacity : (0 : ℚ) ≤ burst := Int.cast_nonneg roomy
  have gained : 0 ≤ ((max 0 (now - bucket.ts) : Int) / 1000 : ℚ) * rate := by
    positivity
  exact le_min capacity (add_nonneg level gained)

/-- The script keeps the level within the capacity, and notes the time. -/
theorem within_takeScript (fast : 0 ≤ rate) (roomy : 0 ≤ burst)
    (now : Int) (level : 0 ≤ bucket.tokens) :
    (takeScript rate burst now 1 (some bucket)).2.Within burst ∧
      (takeScript rate burst now 1 (some bucket)).2.ts = now := by
  have atMost := refilled_le rate burst now bucket
  have atLeast := refilled_nonneg fast roomy now level
  rcases takeScript_cases rate burst now bucket with
    ⟨enough, replied⟩ | ⟨short, retryAfterMs, replied⟩
  · rw [replied]
    refine ⟨⟨?_, ?_⟩, rfl⟩ <;> linarith
  · rw [replied]
    exact ⟨⟨atLeast, atMost⟩, rfl⟩

/-- A call that is let through costs a token. -/
theorem admitted_takeScript (rate burst now : Int) (bucket : Bucket) :
    (admitted [(takeScript rate burst now 1 (some bucket)).1] : ℚ) +
        (takeScript rate burst now 1 (some bucket)).2.tokens =
      refilled rate burst now bucket := by
  rcases takeScript_cases rate burst now bucket with
    ⟨enough, replied⟩ | ⟨short, retryAfterMs, replied⟩ <;>
    simp [replied, admitted]

/-! ## Sequences of calls -/

theorem admitted_cons (result : RateResult) (results : List RateResult) :
    admitted (result :: results) = admitted [result] + admitted results := by
  unfold admitted
  rw [← List.countP_append]
  rfl

theorem takes_append (rate burst : Int) (first second : List Int)
    (state : Option Bucket) :
    takes rate burst (first ++ second) state =
      takes rate burst first state ++
        takes rate burst second (afterTakes rate burst first state) := by
  induction first generalizing state with
  | nil => rfl
  | cons now nows ih => simp [takes, afterTakes, ih]

theorem takes_length (rate burst : Int) (nows : List Int)
    (state : Option Bucket) :
    (takes rate burst nows state).length = nows.length := by
  induction nows generalizing state with
  | nil => rfl
  | cons now nows ih => simp [takes, ih]

theorem within_afterTakes (fast : 0 ≤ rate) (roomy : 0 ≤ burst)
    (nows : List Int) {state : Option Bucket}
    (within : ∀ bucket, state = some bucket → bucket.Within burst) :
    ∀ bucket, afterTakes rate burst nows state = some bucket →
      bucket.Within burst := by
  induction nows generalizing state with
  | nil => exact within
  | cons now nows ih =>
      apply ih
      rintro _ ⟨rfl⟩
      obtain ⟨bucket, same, level⟩ := takeScript_eq_some rate now roomy
        fun bucket found => (within bucket found).1
      rw [same]
      exact (within_takeScript fast roomy now level).1

/-- The calls let through and the tokens left were in the bucket, or came in
while the clock went forward. -/
theorem admitted_add_level_le (rate burst : Int) (nows : List Int)
    (bucket : Bucket) :
    ∃ left, afterTakes rate burst nows (some bucket) = some left ∧
      (admitted (takes rate burst nows (some bucket)) : ℚ) + left.tokens ≤
        bucket.tokens + rate * forward (bucket.ts :: nows) / 1000 := by
  induction nows generalizing bucket with
  | nil => exact ⟨bucket, rfl, by simp [takes, admitted, forward]⟩
  | cons now nows ih =>
      obtain ⟨left, leaves, bound⟩ :=
        ih (takeScript rate burst now 1 (some bucket)).2
      refine ⟨left, leaves, ?_⟩
      have spent := admitted_takeScript rate burst now bucket
      have gained := refilled_le_add rate burst now bucket
      have noted : (takeScript rate burst now 1 (some bucket)).2.ts = now := by
        rcases takeScript_cases rate burst now bucket with
          ⟨_, replied⟩ | ⟨_, _, replied⟩ <;> rw [replied]
      rw [noted] at bound
      rw [takes, admitted_cons]
      simp only [forward]
      push_cast at bound gained ⊢
      linarith

/-- A bucket that holds at most its capacity lets through at most that, and
what comes in between the first call and the last. -/
theorem admitted_le (fast : 0 ≤ rate) (roomy : 0 ≤ burst) (nows : List Int)
    {state : Option Bucket}
    (within : ∀ bucket, state = some bucket → bucket.Within burst) :
    (admitted (takes rate burst nows state) : ℚ) ≤
      burst + rate * forward nows / 1000 := by
  cases nows with
  | nil => simpa [takes, admitted, forward] using roomy
  | cons now nows =>
      obtain ⟨bucket, starts, level⟩ := takeScript_eq_some rate now roomy
        fun bucket found => (within bucket found).1
      obtain ⟨left, leaves, bound⟩ := admitted_add_level_le rate burst nows
        (takeScript rate burst now 1 (some bucket)).2
      have after := within_takeScript fast roomy now level
      have stays : ∀ taken,
          some (takeScript rate burst now 1 (some bucket)).2 = some taken →
            taken.Within burst := by
        rintro _ ⟨rfl⟩
        exact after.1
      have rest := within_afterTakes fast roomy nows stays left leaves
      have spent := admitted_takeScript rate burst now bucket
      have atMost := refilled_le rate burst now bucket
      rw [after.2] at bound
      rw [takes, starts, admitted_cons]
      push_cast
      have := rest.1
      linarith

end RateLimit

/-! ## Buckets that expire -/

namespace Redis

open RateLimit

variable (webhookId : WebhookId) (rate burst : Int)

/-- A call of `take` with cost 1 on the bucket of a webhook. -/
def takeAt (redis : Redis) (call : TakeCall) : Option RateResult × Redis :=
  { redis with clock := call.clock }.take webhookId rate burst call.now 1

/-- The replies to a sequence of calls. -/
def takes : List TakeCall → Redis → List (Option RateResult)
  | [], _ => []
  | call :: calls, redis =>
      let result := redis.takeAt webhookId rate burst call
      result.1 :: takes calls result.2

def afterTakes (calls : List TakeCall) (redis : Redis) : Redis :=
  calls.foldl
    (fun redis call => (redis.takeAt webhookId rate burst call).2) redis

/-- The calls that were let through. -/
def admitted (results : List (Option RateResult)) : Nat :=
  results.countP fun result => result.any RateResult.allowed

/-- Every call runs before the key expires that the call before it has
written. -/
def Lives : List TakeCall → Prop
  | first :: second :: rest =>
      second.clock < first.clock + ttlMs rate burst ∧ Lives (second :: rest)
  | _ => True

/-- Every call finds the key of the call before it, or a bucket that would be
full again. -/
def Current : Int → Option Bucket → List TakeCall → Prop
  | _, _, [] => True
  | clock, state, call :: calls =>
      (∀ bucket, state = some bucket →
        call.clock < clock + ttlMs rate burst ∨
          refilled rate burst call.now bucket = burst) ∧
        Current call.clock (some (takeScript rate burst call.now 1 state).2)
          calls

variable {webhookId rate burst}

/-- The stored bucket, written by a call at server time `clock`. -/
def Holds (webhookId : WebhookId) (rate burst clock : Int)
    (bucket : Option Bucket) (redis : Redis) : Prop :=
  redis.buckets webhookId =
    bucket.map fun bucket => ⟨bucket, some (clock + ttlMs rate burst)⟩

theorem ttlMs_pos (fast : 0 < rate) (roomy : 0 ≤ burst) :
    0 < ttlMs rate burst := by
  have speed : (0 : ℚ) < rate := Int.cast_pos.mpr fast
  have capacity : (0 : ℚ) ≤ burst := Int.cast_nonneg roomy
  have : 0 ≤ Int.ceil ((burst : ℚ) / rate * 1000) :=
    Int.ceil_nonneg (by positivity)
  unfold ttlMs
  omega

/-- The script on a stored bucket that has not expired, or that is full
again. -/
theorem takeAt_of_holds (nonzero : rate ≠ 0)
    (lasting : 0 < ttlMs rate burst) {redis : Redis} {clock : Int}
    {call : TakeCall} {state : Option Bucket}
    (holds : redis.Holds webhookId rate burst clock state)
    (current : ∀ bucket, state = some bucket →
      call.clock < clock + ttlMs rate burst ∨
        refilled rate burst call.now bucket = burst) :
    (redis.takeAt webhookId rate burst call).1 =
        some (takeScript rate burst call.now 1 state).1 ∧
      (redis.takeAt webhookId rate burst call).2.Holds webhookId rate burst
        call.clock (some (takeScript rate burst call.now 1 state).2) := by
  have same : takeScript rate burst call.now 1
      ({ redis with clock := call.clock }.bucket webhookId) =
        takeScript rate burst call.now 1 state := by
    unfold Redis.bucket
    rw [holds]
    cases state with
    | none => rfl
    | some bucket =>
        simp only [Option.map_some, Option.bind_some, Expiring.read]
        split
        · rfl
        next gone =>
          have full := (current bucket rfl).resolve_left gone
          rw [takeScript_none]
          apply takeScript_congr _ _ _
          rw [full]
          simp [refilled]
  simp only [takeAt, Redis.take, same, nonzero, if_false, Holds,
    Function.update_self, Expiring.pexpire, lasting, if_true,
    Option.map_some, and_self]

/-- A bucket fills up in the lifetime of its key, less the margin of a second
that the script adds. -/
theorem full_of_idle (fast : 0 < rate) {now : Int} {bucket : Bucket}
    (level : 0 ≤ bucket.tokens)
    (idle : bucket.ts + ttlMs rate burst ≤ now + 1000) :
    refilled rate burst now bucket = burst := by
  have speed : (0 : ℚ) < rate := Int.cast_pos.mpr fast
  have waits : (burst : ℚ) / rate * 1000 ≤ (now - bucket.ts : Int) := by
    have := Int.le_ceil ((burst : ℚ) / rate * 1000)
    have whole : Int.ceil ((burst : ℚ) / rate * 1000) ≤ now - bucket.ts := by
      unfold ttlMs at idle
      omega
    exact this.trans (Int.cast_le.mpr whole)
  have elapsed : ((now - bucket.ts : Int) : ℚ) ≤
      (max 0 (now - bucket.ts) : Int) :=
    Int.cast_le.mpr (le_max_right _ _)
  have gained : (burst : ℚ) ≤
      ((max 0 (now - bucket.ts) : Int) / 1000 : ℚ) * rate := by
    calc (burst : ℚ) = (burst : ℚ) / rate * 1000 / 1000 * rate := by
          field_simp
      _ ≤ ((max 0 (now - bucket.ts) : Int) / 1000 : ℚ) * rate := by
          gcongr
          exact waits.trans elapsed
  unfold refilled
  exact min_eq_left (by linarith)

/-- An idle bucket is full by the time its key expires. -/
theorem full_of_expired (fast : 0 < rate) {now : Int}
    {bucket : Bucket} (level : 0 ≤ bucket.tokens)
    (expired : bucket.ts + ttlMs rate burst ≤ now) :
    refilled rate burst now bucket = burst :=
  full_of_idle fast level (by omega)

/-- The expiring bucket answers like one that is never dropped. -/
theorem takes_of_current (nonzero : rate ≠ 0)
    (lasting : 0 < ttlMs rate burst)
    (calls : List TakeCall) {redis : Redis} {clock : Int}
    {state : Option Bucket}
    (holds : redis.Holds webhookId rate burst clock state)
    (current : Current rate burst clock state calls) :
    redis.takes webhookId rate burst calls =
        (RateLimit.takes rate burst (calls.map TakeCall.now) state).map
          some ∧
      ∃ last, (redis.afterTakes webhookId rate burst calls).Holds webhookId
        rate burst last
        (RateLimit.afterTakes rate burst (calls.map TakeCall.now) state) := by
  induction calls generalizing redis clock state with
  | nil => exact ⟨rfl, clock, holds⟩
  | cons call calls ih =>
      obtain ⟨replied, stored⟩ := takeAt_of_holds nonzero lasting holds current.1
      obtain ⟨same, last, left⟩ := ih stored current.2
      refine ⟨?_, last, left⟩
      rw [takes, replied, same]
      rfl

theorem current_of_lives (calls : List TakeCall) {first : TakeCall}
    (lives : Lives rate burst (first :: calls)) (state : Option Bucket) :
    Current rate burst first.clock state calls := by
  induction calls generalizing first state with
  | nil => trivial
  | cons call calls ih => exact ⟨fun _ _ => .inl lives.1, ih lives.2 _⟩

/-- Calls that read the server's clock, which does not go back. -/
theorem current_of_sorted (fast : 0 < rate) (roomy : 0 ≤ burst)
    (times : List Int) {clock : Int} {state : Option Bucket}
    (left : ∀ bucket, state = some bucket →
      bucket.Within burst ∧ bucket.ts = clock) :
    Current rate burst clock state (times.map fun time => ⟨time, time⟩) := by
  induction times generalizing clock state with
  | nil => trivial
  | cons time times ih =>
      obtain ⟨taken, same, level⟩ := takeScript_eq_some rate time roomy
        fun bucket found => (left bucket found).1.1
      refine ⟨?_, ih ?_⟩
      · rintro bucket rfl
        obtain ⟨within, rfl⟩ := left bucket rfl
        rcases lt_or_ge time (bucket.ts + ttlMs rate burst) with lives | gone
        · exact .inl lives
        · exact .inr (full_of_expired fast within.1 gone)
      · rintro _ ⟨rfl⟩
        rw [same]
        exact within_takeScript fast.le roomy time level

end Redis

/-! ## Windows of time -/

namespace RateLimit

/-- The calls let through in the window from `start` to `stop`. -/
def admittedWithin (start stop : Int) (times : List Int)
    (results : List (Option RateResult)) : Nat :=
  (times.zip results).countP fun call =>
    decide (start ≤ call.1 ∧ call.1 ≤ stop) &&
      call.2.any RateResult.allowed

/-- In nondecreasing order, the times of a window are consecutive. -/
theorem exists_window (start stop : Int) {times : List Int}
    (sorted : times.Pairwise (· ≤ ·)) :
    ∃ before inside after, times = before ++ inside ++ after ∧
      (∀ time ∈ before, time < start) ∧
      (∀ time ∈ inside, start ≤ time ∧ time ≤ stop) ∧
      ∀ time ∈ after, stop < time := by
  induction times with
  | nil => exact ⟨[], [], [], rfl, by simp, by simp, by simp⟩
  | cons time times ih =>
      obtain ⟨before, inside, after, rfl, early, within, late⟩ :=
        ih (List.Pairwise.of_cons sorted)
      have later := (List.pairwise_cons.mp sorted).1
      rcases lt_or_ge time start with sooner | since
      · refine ⟨time :: before, inside, after, rfl, ?_, within, late⟩
        simpa [sooner] using early
      · have none : before = [] := by
          rw [List.eq_nil_iff_forall_not_mem]
          intro other member
          have := later other (by simp [member])
          have := early other member
          omega
        subst none
        rcases le_or_gt time stop with inTime | after'
        · refine ⟨[], time :: inside, after, rfl, by simp, ?_, late⟩
          simpa [since, inTime] using within
        · have empty : inside = [] := by
            rw [List.eq_nil_iff_forall_not_mem]
            intro other member
            have := later other (by simp [member])
            have := within other member
            omega
          subst empty
          refine ⟨[], [], time :: after, rfl, by simp, by simp, ?_⟩
          simpa [after'] using late

/-- Times in a window go forward by at most its length. -/
theorem forward_le_of_sorted {start stop : Int} (ordered : start ≤ stop)
    {times : List Int} (sorted : times.Pairwise (· ≤ ·))
    (within : ∀ time ∈ times, start ≤ time ∧ time ≤ stop) :
    forward times ≤ stop - start := by
  induction times generalizing start with
  | nil => simpa [forward] using ordered
  | cons first times ih =>
      have bounds := within first List.mem_cons_self
      cases times with
      | nil =>
          simp only [forward]
          omega
      | cons second rest =>
          have step := (List.pairwise_cons.mp sorted).1 second
            List.mem_cons_self
          have onward := @ih second
            (within second (by simp)).2 (List.Pairwise.of_cons sorted)
            (fun time member => ?_)
          · simp only [forward]
            omega
          · refine ⟨?_, (within time (by simp [member])).2⟩
            rcases List.mem_cons.mp member with rfl | inRest
            · exact le_rfl
            · exact (List.pairwise_cons.mp
                (List.Pairwise.of_cons sorted)).1 time inRest

theorem admittedWithin_append {start stop : Int} {first second : List Int}
    {replies others : List (Option RateResult)}
    (same : first.length = replies.length) :
    admittedWithin start stop (first ++ second) (replies ++ others) =
      admittedWithin start stop first replies +
        admittedWithin start stop second others := by
  unfold admittedWithin
  rw [List.zip_append same, List.countP_append]

theorem admittedWithin_outside {start stop : Int} {times : List Int}
    (outside : ∀ time ∈ times, time < start ∨ stop < time)
    (results : List (Option RateResult)) :
    admittedWithin start stop times results = 0 := by
  rw [admittedWithin, List.countP_eq_zero]
  intro call member
  have := outside _ (List.of_mem_zip member).1
  simp only [Bool.and_eq_true, decide_eq_true_eq]
  omega

theorem admittedWithin_le (start stop : Int) (times : List Int)
    (results : List RateResult) :
    admittedWithin start stop times (results.map some) ≤
      admitted results := by
  induction times generalizing results with
  | nil => simp [admittedWithin]
  | cons time times ih =>
      cases results with
      | nil => simp [admittedWithin]
      | cons result results =>
          have rest := ih results
          simp only [admittedWithin, admitted, List.map_cons,
            List.zip_cons_cons, List.countP_cons, Option.any_some] at rest ⊢
          have counted : ∀ inTime allowed : Bool,
              (if (inTime && allowed) = true then 1 else 0) ≤
                if allowed = true then 1 else 0 := by
            decide
          exact Nat.add_le_add rest (counted _ _)

/-- The calls let through in a window are at most the capacity and what comes
in during the window. -/
theorem admittedWithin_takes_le {rate burst start stop : Int}
    (fast : 0 ≤ rate) (roomy : 0 ≤ burst) (ordered : start ≤ stop)
    {times : List Int} (sorted : times.Pairwise (· ≤ ·)) :
    (admittedWithin start stop times
        ((takes rate burst times none).map some) : ℚ) ≤
      burst + rate * (stop - start) / 1000 := by
  obtain ⟨before, inside, after, rfl, early, within, late⟩ :=
    exists_window start stop sorted
  have sortedInside : inside.Pairwise (· ≤ ·) :=
    (List.pairwise_append.mp (List.pairwise_append.mp sorted).1).2.1
  have fresh : ∀ bucket, (none : Option Bucket) = some bucket →
      bucket.Within burst := by simp
  have levels := within_afterTakes fast roomy before fresh
  have bound := admitted_le fast roomy inside levels
  have distance := forward_le_of_sorted ordered sortedInside within
  have counted := admittedWithin_le start stop inside
    (takes rate burst inside (afterTakes rate burst before none))
  rw [takes_append, takes_append, List.map_append, List.map_append,
    admittedWithin_append (by simp [takes_length]),
    admittedWithin_append (by simp [takes_length]),
    admittedWithin_outside (fun time member => .inl (early time member)),
    admittedWithin_outside (fun time member => .inr (late time member)),
    zero_add, add_zero]
  have speed : (0 : ℚ) ≤ rate := Int.cast_nonneg fast
  calc ((admittedWithin start stop inside ((takes rate burst inside
            (afterTakes rate burst before none)).map some) : ℕ) : ℚ)
      ≤ admitted (takes rate burst inside
          (afterTakes rate burst before none)) := Nat.cast_le.mpr counted
    _ ≤ burst + rate * forward inside / 1000 := bound
    _ ≤ burst + rate * (stop - start) / 1000 := by
        gcongr
        exact_mod_cast distance

end RateLimit

/-- On callers whose clocks agree with the server's, the stored bucket answers
like one that never expires, its level stays within the capacity, and in every
window of time it lets through at most what an ideal bucket can. -/
theorem stored_bucket_refines_ideal (redis : Redis) (webhookId : WebhookId)
    {rate burst : Int} (fast : 1 ≤ rate) (roomy : 1 ≤ burst)
    (unseen : redis.buckets webhookId = none) (times : List Int)
    (sorted : times.Pairwise (· ≤ ·)) :
    let calls : List TakeCall := times.map fun time => ⟨time, time⟩
    redis.takes webhookId rate burst calls =
        (RateLimit.takes rate burst times none).map some ∧
      (∀ entry, (redis.afterTakes webhookId rate burst calls).buckets
        webhookId = some entry → entry.value.Within burst) ∧
      ∀ start stop, start ≤ stop →
        (RateLimit.admittedWithin start stop times
          (redis.takes webhookId rate burst calls) : ℚ) ≤
            burst + rate * (stop - start) / 1000 := by
  intro calls
  have nows : calls.map TakeCall.now = times := by
    simp [calls, Function.comp_def]
  have holds : redis.Holds webhookId rate burst 0 none := unseen
  have current : Redis.Current rate burst 0 none calls :=
    Redis.current_of_sorted (by omega) (by omega) times (by simp)
  obtain ⟨same, last, left⟩ := Redis.takes_of_current (by omega)
    (Redis.ttlMs_pos (by omega) (by omega)) calls holds current
  rw [nows] at same left
  refine ⟨same, ?_, ?_⟩
  · intro entry stored
    rw [left] at stored
    obtain ⟨bucket, leaves, rfl⟩ := Option.map_eq_some_iff.mp stored
    exact RateLimit.within_afterTakes (by omega) (by omega) times (by simp)
      bucket leaves
  · intro start stop ordered
    rw [same]
    exact RateLimit.admittedWithin_takes_le (by omega) (by omega) ordered
      sorted

theorem stored_bucket_refines_ideal_drained :
    let calls : List TakeCall :=
      [0, 0, 0, 100].map fun time => ⟨time, time⟩
    Redis.empty.takes 1 10 2 calls =
        (RateLimit.takes 10 2 [0, 0, 0, 100] none).map some ∧
      (∀ entry, (Redis.empty.afterTakes 1 10 2 calls).buckets 1 =
        some entry → entry.value.Within 2) ∧
      ∀ start stop, start ≤ stop →
        (RateLimit.admittedWithin start stop [0, 0, 0, 100]
          (Redis.empty.takes 1 10 2 calls) : ℚ) ≤
            (2 : Int) + (10 : Int) * (stop - start) / 1000 :=
  stored_bucket_refines_ideal .empty 1 (by decide) (by decide) rfl
    [0, 0, 0, 100] (by decide)

end WebhookDelivery
