import WebhookDelivery.Breaker

/-!
# How long an open breaker blocks

The key of a breaker lives for an hour, whatever the cooldown.  A breaker that
a failure has opened blocks for the whole cooldown as long as the cooldown is
not longer than that; a longer one ends early, with the key.
-/

namespace WebhookDelivery

namespace Circuit

variable {threshold cooldown time : Int} {breaker : Breaker}

/-- An open breaker, opened or reopened at `openedAt`. -/
structure Opened (threshold openedAt : Int) (breaker : Breaker) : Prop where
  state : breaker.state = some .opened
  openedAt : breaker.openedAt = some openedAt
  failures : threshold ≤ breaker.failures.getD 0

/-- A failure that opens a breaker counts as many as the threshold. -/
theorem opened_of_failureScript {hash : Option Breaker}
    (opens : (failureScript threshold time hash).1 = .opened) :
    Opened threshold time (failureScript threshold time hash).2 := by
  unfold failureScript at opens ⊢
  simp only at opens ⊢
  split
  · exact ⟨rfl, rfl, le_rfl⟩
  next unprobed =>
    rw [if_neg unprobed] at opens
    split
    next reached => exact ⟨rfl, rfl, reached⟩
    next below =>
      rw [if_neg below] at opens
      cases opens

/-- A check during the cooldown says open, and writes nothing. -/
theorem Opened.checkScript {openedAt : Int}
    (opened : Opened threshold openedAt breaker)
    (young : time < openedAt + cooldown) :
    checkScript time cooldown (some breaker) = (.opened, none) := by
  have early : ¬time - openedAt ≥ cooldown := by omega
  simp [Circuit.checkScript, opened.state, opened.openedAt, early]

/-- A further failure reopens an open breaker. -/
theorem Opened.failureScript {openedAt : Int}
    (opened : Opened threshold openedAt breaker) (time : Int) :
    (failureScript threshold time (some breaker)).1 = .opened := by
  have more : threshold ≤ breaker.failures.getD 0 + 1 := by
    have := opened.failures
    omega
  simp [Circuit.failureScript, opened.state, more]

end Circuit

namespace Redis

open Circuit

variable {webhookId : WebhookId} {threshold cooldown since : Int}
  {redis : Redis}

/-- The key of a breaker opened at `since` or later. -/
def Blocks (webhookId : WebhookId) (threshold since : Int) (redis : Redis) :
    Prop :=
  ∃ breaker openedAt, Opened threshold openedAt breaker ∧ since ≤ openedAt ∧
    redis.circuits webhookId = some ⟨breaker, some (openedAt + stateTtlMs)⟩

theorem breaker_of_stored {breaker : Breaker} {expiry time : Int}
    (stored : redis.circuits webhookId = some ⟨breaker, some expiry⟩)
    (lives : time < expiry) :
    ({ redis with clock := time } : Redis).breaker webhookId =
      some breaker := by
  unfold Redis.breaker
  rw [stored]
  simp [Expiring.read, lives]

/-- A failure writes the hash, and sets the lifetime of the key anew. -/
theorem stored_of_failure (redis : Redis) (time : Int) :
    (redis.breakerCall webhookId threshold cooldown
      ⟨time, .recordFailure⟩).2.circuits webhookId =
        some ⟨(failureScript threshold time
          (({ redis with clock := time } : Redis).breaker webhookId)).2,
          some (time + stateTtlMs)⟩ :=
  (keeps_setBreaker { redis with clock := time } _).stored

/-- A failure that opens the breaker blocks it. -/
theorem blocks_of_failure {time : Int}
    (opens : (redis.breakerCall webhookId threshold cooldown
      ⟨time, .recordFailure⟩).1 = .opened) :
    (redis.breakerCall webhookId threshold cooldown
      ⟨time, .recordFailure⟩).2.Blocks webhookId threshold time := by
  exact ⟨_, time, opened_of_failureScript opens, le_rfl,
    stored_of_failure redis time⟩

/-- During the cooldown a check of a blocked breaker says open, and leaves it
as it is. -/
theorem Blocks.check (short : cooldown ≤ stateTtlMs)
    (blocks : redis.Blocks webhookId threshold since) {time : Int}
    (young : time < since + cooldown) :
    redis.breakerCall webhookId threshold cooldown ⟨time, .check⟩ =
      (.opened, { redis with clock := time }) := by
  obtain ⟨breaker, openedAt, opened, later, stored⟩ := blocks
  have lives : time < openedAt + stateTtlMs := by omega
  have early : time < openedAt + cooldown := by omega
  simp only [breakerCall, checkCircuit, breaker_of_stored stored lives,
    opened.checkScript early]

/-- During the cooldown every call but the recording of a success leaves the
breaker blocked. -/
theorem Blocks.step (short : cooldown ≤ stateTtlMs)
    (blocks : redis.Blocks webhookId threshold since) {timed : TimedCall}
    (young : timed.time < since + cooldown) (later : since ≤ timed.time)
    (failing : timed.call ≠ .recordSuccess) :
    (redis.breakerCall webhookId threshold cooldown timed).2.Blocks webhookId
      threshold since := by
  obtain ⟨time, call⟩ := timed
  cases call with
  | check =>
      rw [blocks.check short young]
      exact blocks
  | recordSuccess => exact absurd rfl failing
  | recordFailure =>
      have opens : (redis.breakerCall webhookId threshold cooldown
          ⟨time, .recordFailure⟩).1 = .opened := by
        obtain ⟨breaker, openedAt, opened, newer, stored⟩ := blocks
        have lives : time < openedAt + stateTtlMs := by
          simp only at young
          omega
        simp only [breakerCall, recordFailure, breaker_of_stored stored lives]
        exact opened.failureScript time
      obtain ⟨breaker, openedAt, opened, newer, stored⟩ :=
        blocks_of_failure opens
      exact ⟨breaker, openedAt, opened, later.trans newer, stored⟩

theorem Blocks.run (short : cooldown ≤ stateTtlMs) {calls : List TimedCall}
    (blocks : redis.Blocks webhookId threshold since)
    (during : ∀ timed ∈ calls, since ≤ timed.time ∧
      timed.time < since + cooldown ∧ timed.call ≠ .recordSuccess) :
    (redis.afterBreakerCalls webhookId threshold cooldown calls).Blocks
      webhookId threshold since := by
  induction calls generalizing redis with
  | nil => exact blocks
  | cons timed calls ih =>
      obtain ⟨later, young, failing⟩ := during timed List.mem_cons_self
      exact ih (blocks.step short young later failing)
        fun other member => during other (List.mem_cons_of_mem timed member)

/-! ## A breaker that lapses -/

theorem check_of_lapsed {breaker : Breaker} {expiry time : Int}
    (stored : redis.circuits webhookId = some ⟨breaker, some expiry⟩)
    (lapsed : expiry ≤ time) :
    (redis.breakerCall webhookId threshold cooldown ⟨time, .check⟩).1 =
      .closed := by
  have gone : ({ redis with clock := time } : Redis).breaker webhookId =
      none := by
    unfold Redis.breaker
    rw [stored]
    simp [Expiring.read, lapsed]
  simp only [breakerCall, checkCircuit_fst, gone]
  rfl

/-- Failures at one time are all counted. -/
theorem timely_replicate (count : Nat) {refreshed : Option Int}
    (fresh : ∀ last ∈ refreshed, 0 < last + stateTtlMs) (redis : Redis) :
    Timely webhookId threshold cooldown 0
      (List.replicate count ⟨0, .recordFailure⟩) refreshed redis := by
  induction count generalizing refreshed redis with
  | zero => exact fresh
  | succ count ih =>
      refine ⟨fresh, ih ?_ _⟩
      intro last set
      simp only [refreshes, if_true, Option.mem_some_iff] at set
      subst set
      decide

end Redis

namespace Circuit

theorem failures_replicate (count : Nat) (time : Int) :
    failures (List.replicate count ⟨time, .recordFailure⟩) = count := by
  induction count with
  | zero => rfl
  | succ count ih => rw [List.replicate_succ', failures_failure, ih]

end Circuit

/-- In every run of calls on one breaker, a failure that opens it blocks it for
the cooldown, unless a success is recorded in between. -/
def Circuit.BlocksCooldown (threshold cooldown : Int) : Prop :=
  ∀ (redis : Redis) (webhookId : WebhookId) (before after : List TimedCall)
    (opening time : Int),
    redis.circuits webhookId = none →
    (before.map TimedCall.time ++ opening :: after.map TimedCall.time ++
      [time]).Pairwise (· ≤ ·) →
    let failed :=
      (redis.afterBreakerCalls webhookId threshold cooldown
        before).breakerCall webhookId threshold cooldown
          ⟨opening, .recordFailure⟩
    failed.1 = .opened →
    (∀ timed ∈ after, timed.call ≠ .recordSuccess) →
    time < opening + cooldown →
      ((failed.2.afterBreakerCalls webhookId threshold cooldown
        after).breakerCall webhookId threshold cooldown ⟨time, .check⟩).1 =
          .opened

namespace Circuit

variable {threshold cooldown : Int}

/-- A cooldown of at most the lifetime of the key is waited for. -/
theorem blocksCooldown_of_short (short : cooldown ≤ stateTtlMs) :
    BlocksCooldown threshold cooldown := by
  intro redis webhookId before after opening time _ sorted failed opens
    failing young
  have ordered := (List.pairwise_append.mp sorted).2.2
  have since := List.pairwise_cons.mp
    (List.pairwise_append.mp (List.pairwise_append.mp sorted).1).2.1
  have during : ∀ timed ∈ after, opening ≤ timed.time ∧
      timed.time < opening + cooldown ∧ timed.call ≠ .recordSuccess := by
    intro timed member
    have last : timed.time ≤ time := by
      refine ordered _ ?_ _ (List.mem_singleton_self time)
      simp only [List.mem_append, List.mem_cons, List.mem_map]
      exact .inr (.inr ⟨timed, member, rfl⟩)
    exact ⟨since.1 _ (List.mem_map_of_mem member), by omega,
      failing timed member⟩
  have still := (Redis.blocks_of_failure opens).run short during
  rw [still.check short young]

/-- A longer one ends with the key: the failures that open a new breaker are
forgotten after an hour. -/
theorem short_of_blocksCooldown (positive : 1 ≤ threshold)
    (blocks : BlocksCooldown threshold cooldown) :
    cooldown ≤ stateTtlMs := by
  by_contra long
  obtain ⟨count, whole⟩ : ∃ count : Nat, threshold = count + 1 :=
    ⟨(threshold - 1).toNat, by omega⟩
  let before : List TimedCall := List.replicate count ⟨0, .recordFailure⟩
  have zeros : before.map TimedCall.time ++ [0] =
      List.replicate (count + 1) 0 := by
    simp [before, List.replicate_succ']
  have start : Redis.empty.Keeps 0 none {} := ⟨rfl, fun _ => rfl⟩
  have sorted : (0 :: (before.map TimedCall.time ++ [0])).Pairwise
      (· ≤ ·) := by
    rw [zeros, ← List.replicate_succ]
    exact List.pairwise_replicate.mpr (.inr le_rfl)
  obtain ⟨refreshed, breaker, last, keeps, records, _, lives⟩ :=
    Redis.keeps_afterBreakerCalls positive 0 before start
      (@Circuit.Records.fresh _ cooldown [] _ positive rfl)
      (Redis.timely_replicate count (by simp) .empty) sorted
  have reached : threshold ≤ failures ([] ++ before) + 1 := by
    rw [List.nil_append, failures_replicate, whole]
  have opens := (@failureScript_of_records threshold cooldown _ _ 0 _
    records).1.mpr reached
  rw [← keeps.read lives, ← failureScript_getD] at opens
  have ordered : (before.map TimedCall.time ++
      0 :: ([] : List TimedCall).map TimedCall.time ++
      [stateTtlMs]).Pairwise (· ≤ ·) := by
    rw [List.map_nil, zeros, List.pairwise_append]
    refine ⟨List.pairwise_replicate.mpr (.inr le_rfl),
      List.pairwise_singleton _ _, ?_⟩
    intro first early second late
    rw [List.eq_of_mem_replicate early, List.mem_singleton.mp late]
    decide
  have checked := blocks .empty 0 before [] 0 stateTtlMs rfl ordered opens
    (by simp) (by omega)
  have stored := @Redis.stored_of_failure 0 threshold cooldown
    (Redis.afterBreakerCalls 0 threshold cooldown before .empty) 0
  have closed := @Redis.check_of_lapsed 0 threshold cooldown _ _ _ stateTtlMs
    stored (by omega)
  have clash := checked.symm.trans closed
  cases clash

end Circuit

end WebhookDelivery
