import WebhookDelivery.TokenBucket

/-!
# Token buckets and clocks that disagree

The script ignores a clock that has gone back, but notes its reading.  The
next call then earns the time in between once more.  What the bucket lets
through is therefore bounded by the distance over which the readings go
forward, and by their span only when the two agree.
-/

namespace WebhookDelivery

open RateLimit

namespace RateLimit

/-- The same readings, each made `count` more times. -/
def repeated (count : Nat) (nows : List Int) : List Int :=
  nows.flatMap (List.replicate (count + 1))

/-- From the lowest reading to the highest. -/
def span : List Int → Int
  | [] => 0
  | first :: nows => nows.foldl max first - nows.foldl min first

/-- A sequence of readings lets through no more than comes in over a distance
that they do not exceed. -/
theorem admitted_takes_le {rate burst distance : Int} (fast : 0 ≤ rate)
    (roomy : 0 ≤ burst) {nows : List Int} (earned : forward nows ≤ distance) :
    (admitted (takes rate burst nows none) : ℚ) ≤
      burst + rate * distance / 1000 := by
  have fresh : ∀ bucket, (none : Option Bucket) = some bucket →
      bucket.Within burst := by simp
  have bound := admitted_le fast roomy nows fresh
  have speed : (0 : ℚ) ≤ rate := Int.cast_nonneg fast
  calc (admitted (takes rate burst nows none) : ℚ)
      ≤ burst + rate * forward nows / 1000 := bound
    _ ≤ burst + rate * distance / 1000 := by
        gcongr

theorem forward_replicate (count : Nat) (now : Int) (nows : List Int) :
    forward (now :: (List.replicate count now ++ nows)) =
      forward (now :: nows) := by
  induction count with
  | zero => rfl
  | succ count ih =>
      rw [List.replicate_succ, List.cons_append, forward, ih]
      simp

/-- Calls at an unchanged reading earn nothing. -/
theorem forward_repeated (count : Nat) (nows : List Int) :
    forward (repeated count nows) = forward nows := by
  induction nows with
  | nil => rfl
  | cons first nows ih =>
      rw [repeated, List.flatMap_cons, List.replicate_succ, List.cons_append,
        forward_replicate]
      cases nows with
      | nil => rfl
      | cons second rest =>
          rw [repeated, List.flatMap_cons, List.replicate_succ,
            List.cons_append] at ih
          rw [List.flatMap_cons, List.replicate_succ, List.cons_append,
            forward, ih]
          rfl

/-! ## Buckets that are drained at every reading -/

/-- Enough calls at one reading take all the tokens there are. -/
theorem takes_replicate {burst : Int} (now : Int) (calls tokens : Nat)
    (room : (tokens : Int) ≤ burst) (enough : tokens ≤ calls) :
    admitted (takes 1000 burst (List.replicate calls now)
        (some ⟨tokens, now⟩)) = tokens ∧
      afterTakes 1000 burst (List.replicate calls now)
        (some ⟨tokens, now⟩) = some ⟨0, now⟩ := by
  induction calls generalizing tokens with
  | zero =>
      obtain rfl : tokens = 0 := by omega
      exact ⟨rfl, rfl⟩
  | succ calls ih =>
      have level : refilled 1000 burst now ⟨tokens, now⟩ = tokens := by
        have : (tokens : ℚ) ≤ burst := by exact_mod_cast room
        simpa [refilled] using this
      rw [List.replicate_succ, takes, afterTakes, admitted_cons]
      rcases takeScript_cases 1000 burst now ⟨tokens, now⟩ with
        ⟨present, replied⟩ | ⟨short, retryAfterMs, replied⟩
      · rw [level] at present replied
        obtain ⟨left, rfl⟩ : ∃ left, tokens = left + 1 :=
          ⟨tokens - 1, by have : 1 ≤ tokens := by exact_mod_cast present
                          omega⟩
        have rest := ih left (by push_cast at room; omega) (by omega)
        simp only [Nat.cast_add, Nat.cast_one, add_sub_cancel_right]
          at replied
        simp only [Nat.cast_add, Nat.cast_one, replied]
        rw [rest.1, rest.2]
        exact ⟨by simp [admitted, add_comm], rfl⟩
      · rw [level] at short replied
        obtain rfl : tokens = 0 := by
          have : tokens < 1 := by exact_mod_cast short
          omega
        rw [replied]
        have rest := ih 0 room (by omega)
        rw [rest.1, rest.2]
        exact ⟨by simp [admitted], rfl⟩

theorem takes_congr {rate burst now : Int} {bucket other : Bucket}
    (nows : List Int)
    (same : refilled rate burst now bucket = refilled rate burst now other) :
    takes rate burst (now :: nows) (some bucket) =
        takes rate burst (now :: nows) (some other) ∧
      afterTakes rate burst (now :: nows) (some bucket) =
        afterTakes rate burst (now :: nows) (some other) := by
  simp only [takes, afterTakes, takeScript_congr rate burst now same,
    and_self]

theorem forward_nonneg (nows : List Int) : 0 ≤ forward nows := by
  induction nows with
  | nil => exact le_rfl
  | cons first nows ih =>
      cases nows with
      | nil => exact le_rfl
      | cons second rest =>
          rw [forward]
          omega

theorem admitted_append (first second : List RateResult) :
    admitted (first ++ second) = admitted first + admitted second :=
  List.countP_append

/-- With a token for every millisecond, a bucket that is drained at every
reading lets through as many calls as the readings go forward. -/
theorem admitted_repeated {burst : Int} {count : Nat}
    (often : burst ≤ count + 1) (nows : List Int) (ts : Int)
    (room : forward (ts :: nows) ≤ burst) :
    (admitted (takes 1000 burst (repeated count nows) (some ⟨0, ts⟩)) : Int) =
      forward (ts :: nows) := by
  induction nows generalizing ts with
  | nil => rfl
  | cons now nows ih =>
      have later := forward_nonneg (now :: nows)
      rw [forward] at room ⊢
      obtain ⟨tokens, earned⟩ : ∃ tokens : Nat, max 0 (now - ts) = tokens :=
        Int.eq_ofNat_of_zero_le (le_max_left _ _)
      have within : (tokens : Int) ≤ burst := by omega
      have level : refilled 1000 burst now ⟨0, ts⟩ =
          refilled 1000 burst now ⟨tokens, now⟩ := by
        unfold refilled
        rw [earned]
        simp
      have drained := takes_replicate now (count + 1) tokens within (by omega)
      have same := takes_congr (List.replicate count now) level
      rw [← List.replicate_succ] at same
      rw [repeated, List.flatMap_cons, takes_append, admitted_append, same.1,
        same.2, drained.1, drained.2, earned]
      have rest := ih now (by omega)
      rw [repeated] at rest
      push_cast
      rw [rest]

/-- The same from a new bucket, which is full. -/
theorem admitted_repeated_none {burst : Int} {count : Nat} (roomy : 0 ≤ burst)
    (often : burst ≤ count + 1) {nows : List Int} (nonempty : nows ≠ [])
    (room : forward nows ≤ burst) :
    (admitted (takes 1000 burst (repeated count nows) none) : Int) =
      burst + forward nows := by
  obtain ⟨now, nows, rfl⟩ := List.exists_cons_of_ne_nil nonempty
  obtain ⟨tokens, rfl⟩ := Int.eq_ofNat_of_zero_le roomy
  have drained := takes_replicate now (count + 1) tokens le_rfl (by omega)
  have rest := admitted_repeated often nows now room
  have fresh : takes 1000 tokens (repeated count (now :: nows)) none =
      takes 1000 tokens (repeated count (now :: nows))
        (some ⟨tokens, now⟩) := by
    rfl
  rw [fresh, repeated, List.flatMap_cons, takes_append, admitted_append,
    drained.1, drained.2]
  rw [repeated] at rest
  push_cast
  rw [rest]

end RateLimit

namespace Redis

theorem admitted_map_some (results : List RateResult) :
    Redis.admitted (results.map some) = RateLimit.admitted results := by
  simp [Redis.admitted, RateLimit.admitted, List.countP_map,
    Function.comp_def]

/-- As long as the key does not expire, the stored bucket answers like one
that never does. -/
theorem takes_of_lives {redis : Redis} {webhookId : WebhookId}
    {rate burst : Int} (fast : 0 < rate) (roomy : 0 ≤ burst)
    (unseen : redis.buckets webhookId = none) {calls : List TakeCall}
    (lives : Lives rate burst calls) :
    redis.takes webhookId rate burst calls =
      (RateLimit.takes rate burst (calls.map TakeCall.now) none).map some := by
  have holds : redis.Holds webhookId rate burst 0 none := unseen
  refine (takes_of_current fast.ne' (ttlMs_pos fast roomy) calls holds ?_).1
  cases calls with
  | nil => trivial
  | cons first calls => exact ⟨by simp, current_of_lives calls lives _⟩

/-- The key does not expire while the server's clock stands still. -/
theorem lives_of_clock {rate burst : Int} (fast : 0 < rate)
    (roomy : 0 ≤ burst) (clock : Int) (nows : List Int) :
    Lives rate burst (nows.map fun now => ⟨clock, now⟩) := by
  induction nows with
  | nil => trivial
  | cons first nows ih =>
      cases nows with
      | nil => trivial
      | cons second rest =>
          have := ttlMs_pos fast roomy
          exact ⟨by simp only; omega, ih⟩

end Redis

/-- For a sequence of clock readings, the bound holds at every rate and
capacity, however often the calls are made at each reading, if and only if the
readings go forward by no more than their span. -/
theorem rate_bound_iff_forward_le_span (redis : Redis) (webhookId : WebhookId)
    (unseen : redis.buckets webhookId = none) (nows : List Int) :
    (∀ rate burst count calls, 1 ≤ rate → 1 ≤ burst →
      Redis.Lives rate burst calls →
        calls.map TakeCall.now = repeated count nows →
          (Redis.admitted (redis.takes webhookId rate burst calls) : ℚ) ≤
            burst + rate * span nows / 1000) ↔
      forward nows ≤ span nows := by
  constructor
  · intro bounded
    rcases eq_or_ne nows [] with rfl | nonempty
    · exact le_rfl
    have roomy : 1 ≤ 1 + forward nows := by
      have := forward_nonneg nows
      omega
    obtain ⟨count, often⟩ := Int.eq_ofNat_of_zero_le
      (by omega : 0 ≤ 1 + forward nows)
    let calls : List TakeCall :=
      (repeated count nows).map fun now => ⟨0, now⟩
    have readings : calls.map TakeCall.now = repeated count nows := by
      simp [calls, Function.comp_def]
    have lives : Redis.Lives 1000 (1 + forward nows) calls :=
      Redis.lives_of_clock (by decide) (by omega) 0 _
    have bound := bounded 1000 (1 + forward nows) count calls (by decide)
      roomy lives readings
    rw [Redis.takes_of_lives (by decide) (by omega) unseen lives, readings,
      Redis.admitted_map_some] at bound
    have exactly := @admitted_repeated_none (1 + forward nows) count
      (by omega) (by omega) nows nonempty (by omega)
    have counted : (admitted (takes 1000 (1 + forward nows)
        (repeated count nows) none) : ℚ) =
          ((1 + forward nows + forward nows : Int) : ℚ) := by
      rw [← exactly]
      rfl
    rw [counted] at bound
    have whole : ((1 + forward nows + forward nows : Int) : ℚ) ≤
        ((1 + forward nows + span nows : Int) : ℚ) := by
      push_cast at bound ⊢
      linarith
    have := Int.cast_le.mp whole
    omega
  · intro earned rate burst count calls fast roomy lives readings
    rw [Redis.takes_of_lives (by omega) (by omega) unseen lives, readings,
      Redis.admitted_map_some]
    rw [← forward_repeated count] at earned
    exact admitted_takes_le (by omega) (by omega) earned

/-- Readings that keep going back and forth earn the same second twice. -/
theorem rate_bound_iff_forward_le_span_apart :
    (∀ rate burst count calls, 1 ≤ rate → 1 ≤ burst →
      Redis.Lives rate burst calls →
        calls.map TakeCall.now = repeated count [0, 1000, 0, 1000] →
          (Redis.admitted (Redis.empty.takes 1 rate burst calls) : ℚ) ≤
            burst + rate * span [0, 1000, 0, 1000] / 1000) ↔
      forward [0, 1000, 0, 1000] ≤ span [0, 1000, 0, 1000] :=
  rate_bound_iff_forward_le_span .empty 1 rfl [0, 1000, 0, 1000]

/-- At one token a second and a capacity of one, two workers whose clocks are
a second apart get three calls through, not two. -/
theorem clocks_apart_exceed_bound :
    ¬∀ rate burst calls, 1 ≤ rate → 1 ≤ burst →
      Redis.Lives rate burst calls →
        (Redis.admitted (Redis.empty.takes 1 rate burst calls) : ℚ) ≤
          burst + rate * span (calls.map TakeCall.now) / 1000 := by
  intro bounded
  have bound := bounded 1 1 [⟨0, 0⟩, ⟨0, 1000⟩, ⟨0, 0⟩, ⟨0, 1000⟩]
    (by decide) (by decide)
    (Redis.lives_of_clock (by decide) (by decide) 0 [0, 1000, 0, 1000])
  have three : Redis.admitted (Redis.empty.takes 1 1 1
      [⟨0, 0⟩, ⟨0, 1000⟩, ⟨0, 0⟩, ⟨0, 1000⟩]) = 3 := by
    decide +kernel
  have second : span [0, 1000, 0, 1000] = 1000 := by
    decide
  rw [three] at bound
  simp only [List.map_cons, List.map_nil, second] at bound
  norm_num at bound

end WebhookDelivery
