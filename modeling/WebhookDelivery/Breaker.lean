import WebhookDelivery.Redis

/-!
# The circuit breaker against its history

Three fields of a hash stand for the calls made so far.  As long as the key
does not lapse, the breaker blocks exactly while the failures since the last
success have reached the threshold and the latest of them is younger than the
cooldown.
-/

namespace WebhookDelivery

inductive BreakerCall
  | check
  | recordSuccess
  | recordFailure
  deriving DecidableEq

/-- A call on one breaker, at a time read by the caller and by the server. -/
structure TimedCall where
  time : Int
  call : BreakerCall
  deriving DecidableEq

namespace Circuit

/-! ## The history -/

/-- The calls since the last success, latest first. -/
def sinceSuccess (calls : List TimedCall) : List TimedCall :=
  calls.reverse.takeWhile fun timed =>
    decide (timed.call ≠ .recordSuccess)

/-- The failures since the last success. -/
def failures (calls : List TimedCall) : Nat :=
  (sinceSuccess calls).countP fun timed =>
    decide (timed.call = .recordFailure)

/-- When the latest of these failures was recorded. -/
def latestFailure (calls : List TimedCall) : Option Int :=
  ((sinceSuccess calls).find? fun timed =>
    decide (timed.call = .recordFailure)).map TimedCall.time

/-- What a check at `time` should say after these calls. -/
def expected (threshold cooldown : Int) (calls : List TimedCall)
    (time : Int) : CircuitState :=
  if (failures calls : Int) < threshold then .closed
  else if time - (latestFailure calls).getD 0 ≥ cooldown then .halfOpen
  else .opened

section

variable (calls : List TimedCall) (time : Int)

theorem failures_check :
    failures (calls ++ [⟨time, .check⟩]) = failures calls := by
  simp [failures, sinceSuccess]

theorem latestFailure_check :
    latestFailure (calls ++ [⟨time, .check⟩]) = latestFailure calls := by
  simp [latestFailure, sinceSuccess]

theorem failures_success :
    failures (calls ++ [⟨time, .recordSuccess⟩]) = 0 := by
  simp [failures, sinceSuccess]

theorem failures_failure :
    failures (calls ++ [⟨time, .recordFailure⟩]) = failures calls + 1 := by
  simp [failures, sinceSuccess]

theorem latestFailure_failure :
    latestFailure (calls ++ [⟨time, .recordFailure⟩]) = some time := by
  simp [latestFailure, sinceSuccess]

end

/-- There is a latest failure as soon as there is one. -/
theorem exists_latestFailure {calls : List TimedCall}
    (some : 0 < failures calls) :
    ∃ latest, latestFailure calls = Option.some latest := by
  obtain ⟨timed, member, failed⟩ := List.countP_pos_iff.mp some
  have found : ((sinceSuccess calls).find? fun timed =>
      decide (timed.call = .recordFailure)).isSome :=
    List.find?_isSome.mpr ⟨timed, member, failed⟩
  obtain ⟨latest, found⟩ := Option.isSome_iff_exists.mp found
  exact ⟨latest.time, by rw [latestFailure, found]; rfl⟩

/-! ## The hash -/

/-- What the fields of the hash say about the calls made so far, the latest of
them at `time`. -/
inductive Records (threshold cooldown : Int) (calls : List TimedCall)
    (time : Int) (breaker : Breaker) : Prop
  | closed (below : (failures calls : Int) < threshold)
      (state : breaker.state = none ∨ breaker.state = some .closed)
      (counted : breaker.failures.getD 0 = failures calls)
  | opened (reached : threshold ≤ failures calls)
      (state : breaker.state = some .opened)
      (since : breaker.openedAt = latestFailure calls)
      (counted : threshold ≤ breaker.failures.getD 0)
  | halfOpen (reached : threshold ≤ failures calls)
      (state : breaker.state = some .halfOpen)
      (cooled : time - (latestFailure calls).getD 0 ≥ cooldown)

variable {threshold cooldown : Int} {calls : List TimedCall}
  {last time : Int} {breaker : Breaker}

/-- A new hash records no calls. -/
theorem Records.fresh (positive : 1 ≤ threshold)
    (none : failures calls = 0) :
    Records threshold cooldown calls last {} :=
  .closed (by omega) (.inl rfl) (by simp [none])

/-- The check answers from the history, and keeps the record. -/
theorem checkScript_of_records
    (records : Records threshold cooldown calls last breaker)
    (later : last ≤ time) :
    (checkScript time cooldown (some breaker)).1 =
        expected threshold cooldown calls time ∧
      Records threshold cooldown (calls ++ [⟨time, .check⟩]) time
        ((checkScript time cooldown (some breaker)).2.getD breaker) := by
  cases records with
  | closed below state counted =>
      have same : checkScript time cooldown (some breaker) =
          (.closed, none) := by
        rcases state with state | state <;> simp [checkScript, state]
      rw [same]
      refine ⟨by simp [expected, below], .closed ?_ state ?_⟩
      · rwa [failures_check]
      · rwa [failures_check]
  | opened reached state since counted =>
      have reached' : ¬(failures calls : Int) < threshold := not_lt.mpr reached
      by_cases cooled : time - (latestFailure calls).getD 0 ≥ cooldown
      · have same : checkScript time cooldown (some breaker) =
            (.halfOpen, some { breaker with state := some .halfOpen }) := by
          simp [checkScript, state, since, cooled]
        rw [same]
        refine ⟨by simp [expected, reached', cooled],
          .halfOpen ?_ rfl ?_⟩
        · rwa [failures_check]
        · rwa [latestFailure_check]
      · have same : checkScript time cooldown (some breaker) =
            (.opened, none) := by
          simp [checkScript, state, since, cooled]
        rw [same]
        refine ⟨by simp [expected, reached', cooled],
          .opened ?_ state ?_ counted⟩
        · rwa [failures_check]
        · rwa [latestFailure_check]
  | halfOpen reached state cooled =>
      have reached' : ¬(failures calls : Int) < threshold := not_lt.mpr reached
      have still : time - (latestFailure calls).getD 0 ≥ cooldown := by omega
      have same : checkScript time cooldown (some breaker) =
          (.halfOpen, none) := by
        simp [checkScript, state]
      rw [same]
      refine ⟨by simp [expected, reached', still], .halfOpen ?_ state ?_⟩
      · rwa [failures_check]
      · rwa [latestFailure_check]

theorem successScript_records (positive : 1 ≤ threshold)
    (hash : Option Breaker) :
    Records threshold cooldown (calls ++ [⟨time, .recordSuccess⟩]) time
      (successScript hash) := by
  refine .closed ?_ (.inr rfl) ?_
  · rw [failures_success]
    omega
  · rw [failures_success]
    rfl

/-- A failure is counted, and opens the breaker at the threshold. -/
theorem failureScript_of_records
    (records : Records threshold cooldown calls last breaker) :
    ((failureScript threshold time (some breaker)).1 = .opened ↔
        threshold ≤ failures calls + 1) ∧
      Records threshold cooldown (calls ++ [⟨time, .recordFailure⟩]) time
        (failureScript threshold time (some breaker)).2 := by
  have opens : ∀ counted : Int, threshold ≤ failures calls + 1 →
      threshold ≤ counted →
        Records threshold cooldown (calls ++ [⟨time, .recordFailure⟩]) time
          { state := some .opened, openedAt := some time,
            failures := some counted } := by
    intro counted reached enough
    refine .opened ?_ rfl ?_ enough
    · rw [failures_failure]
      exact_mod_cast reached
    · rw [latestFailure_failure]
  cases records with
  | closed below state counted =>
      have unprobed : breaker.state ≠ some .halfOpen := by
        rcases state with state | state <;> simp [state]
      by_cases reached : threshold ≤ (failures calls : Int) + 1
      · have same : failureScript threshold time (some breaker) =
            (.opened, { state := some .opened, openedAt := some time,
                        failures := some (failures calls + 1) }) := by
          simp [failureScript, unprobed, counted, reached]
        rw [same]
        exact ⟨by simp [reached], opens _ reached reached⟩
      · have same : failureScript threshold time (some breaker) =
            (.closed,
              { breaker with failures := some (failures calls + 1) }) := by
          simp [failureScript, unprobed, counted, reached]
        rw [same]
        refine ⟨by simp [reached], .closed ?_ state ?_⟩
        · rw [failures_failure]
          push_cast
          omega
        · rw [failures_failure]
          rfl
  | opened reached state since counted =>
      have more : threshold ≤ breaker.failures.getD 0 + 1 := by omega
      have same : failureScript threshold time (some breaker) =
          (.opened, { state := some .opened, openedAt := some time,
                      failures := some (breaker.failures.getD 0 + 1) }) := by
        simp [failureScript, state, more]
      rw [same]
      exact ⟨by simp; omega, opens _ (by omega) more⟩
  | halfOpen reached state cooled =>
      have same : failureScript threshold time (some breaker) =
          (.opened, { state := some .opened, openedAt := some time,
                      failures := some threshold }) := by
        simp [failureScript, state]
      rw [same]
      exact ⟨by simp; omega, opens _ (by omega) le_rfl⟩

end Circuit

/-! ## The key -/

namespace Redis

open Circuit

variable (webhookId : WebhookId) (threshold cooldown : Int)

/-- One call on the breaker of a webhook. -/
def breakerCall (redis : Redis) (timed : TimedCall) : CircuitState × Redis :=
  let redis := { redis with clock := timed.time }
  match timed.call with
  | .check => redis.checkCircuit webhookId timed.time cooldown
  | .recordSuccess => (.closed, redis.recordSuccess webhookId)
  | .recordFailure => redis.recordFailure webhookId threshold timed.time

def afterBreakerCalls (calls : List TimedCall) (redis : Redis) : Redis :=
  calls.foldl
    (fun redis timed => (redis.breakerCall webhookId threshold cooldown timed).2)
    redis

/-- The call sets the lifetime of the key anew: both recordings do, and the
check that moves an open breaker to half-open. -/
def refreshes (redis : Redis) (timed : TimedCall) : Bool :=
  match timed.call with
  | .check =>
      (checkScript timed.time cooldown
        ({ redis with clock := timed.time }.breaker webhookId)).2.isSome
  | _ => true

/-- Every one of the calls, and a further one at `time`, comes before the
lifetime set last has ended. -/
def Timely (time : Int) : List TimedCall → Option Int → Redis → Prop
  | [], refreshed, _ => ∀ since ∈ refreshed, time < since + stateTtlMs
  | timed :: calls, refreshed, redis =>
      (∀ since ∈ refreshed, timed.time < since + stateTtlMs) ∧
        Timely time calls
          (if redis.refreshes webhookId cooldown timed then some timed.time
            else refreshed)
          (redis.breakerCall webhookId threshold cooldown timed).2

instance decidableTimely (time : Int) :
    (calls : List TimedCall) → (refreshed : Option Int) → (redis : Redis) →
      Decidable (Timely webhookId threshold cooldown time calls refreshed
        redis)
  | [], refreshed, _ =>
      inferInstanceAs (Decidable
        (∀ since ∈ refreshed, time < since + stateTtlMs))
  | _ :: calls, _, _ =>
      have := decidableTimely time calls
      inferInstanceAs (Decidable (_ ∧ _))

variable {webhookId threshold cooldown}

/-- The key of a breaker whose lifetime was set at `refreshed`, if at all. -/
structure Keeps (webhookId : WebhookId) (refreshed : Option Int)
    (breaker : Breaker) (redis : Redis) : Prop where
  stored : redis.circuits webhookId =
    refreshed.map fun since => ⟨breaker, some (since + stateTtlMs)⟩
  fresh : refreshed = none → breaker = {}

/-- The scripts read the hash, or an empty one. -/
theorem Keeps.read {redis : Redis} {refreshed : Option Int}
    {breaker : Breaker} (keeps : redis.Keeps webhookId refreshed breaker)
    {time : Int} (timely : ∀ since ∈ refreshed, time < since + stateTtlMs) :
    ({ redis with clock := time }.breaker webhookId).getD {} = breaker := by
  unfold Redis.breaker
  rw [keeps.stored]
  cases refreshed with
  | none => exact (keeps.fresh rfl).symm
  | some since =>
      have lives := timely since rfl
      simp [Expiring.read, lives]

theorem checkCircuit_fst (redis : Redis) (webhookId : WebhookId)
    (now cooldownMs : Int) :
    (redis.checkCircuit webhookId now cooldownMs).1 =
      (checkScript now cooldownMs (redis.breaker webhookId)).1 := by
  unfold checkCircuit
  split <;> simp [*]

theorem keeps_setBreaker (redis : Redis) (breaker : Breaker) :
    (redis.setBreaker webhookId breaker).Keeps webhookId (some redis.clock)
      breaker where
  stored := by
    simp [setBreaker, Expiring.pexpire, stateTtlMs]
  fresh none := by cases none

end Redis

namespace Circuit

theorem checkScript_getD (now cooldown : Int) (hash : Option Breaker) :
    checkScript now cooldown hash =
      checkScript now cooldown (some (hash.getD {})) :=
  rfl

theorem failureScript_getD (threshold now : Int) (hash : Option Breaker) :
    failureScript threshold now hash =
      failureScript threshold now (some (hash.getD {})) :=
  rfl

end Circuit

namespace Redis

open Circuit

variable {webhookId : WebhookId} {threshold cooldown : Int}

/-- One timely call on a breaker that records the history. -/
theorem keeps_breakerCall (positive : 1 ≤ threshold) {redis : Redis}
    {refreshed : Option Int} {breaker : Breaker} {calls : List TimedCall}
    {last : Int} {timed : TimedCall}
    (keeps : redis.Keeps webhookId refreshed breaker)
    (records : Records threshold cooldown calls last breaker)
    (timely : ∀ since ∈ refreshed, timed.time < since + stateTtlMs)
    (later : last ≤ timed.time) :
    ∃ now : Breaker,
      (redis.breakerCall webhookId threshold cooldown timed).2.Keeps webhookId
        (if redis.refreshes webhookId cooldown timed then some timed.time
          else refreshed) now ∧
        Records threshold cooldown (calls ++ [timed]) timed.time now := by
  obtain ⟨time, call⟩ := timed
  have read := keeps.read timely
  cases call with
  | check =>
      have checked := (checkScript_of_records records later).2
      have same : checkScript time cooldown
          ({ redis with clock := time }.breaker webhookId) =
            checkScript time cooldown (some breaker) := by
        rw [checkScript_getD, read]
      rw [← same] at checked
      rcases replied : checkScript time cooldown
          ({ redis with clock := time }.breaker webhookId) with
        ⟨reply, _ | written⟩
      · rw [replied] at checked
        refine ⟨breaker, ?_, checked⟩
        simp only [breakerCall, refreshes, checkCircuit, replied]
        exact ⟨keeps.stored, keeps.fresh⟩
      · rw [replied] at checked
        refine ⟨written, ?_, checked⟩
        simp only [breakerCall, refreshes, checkCircuit, replied,
          Option.isSome_some, if_true]
        exact keeps_setBreaker { redis with clock := time } written
  | recordSuccess =>
      refine ⟨_, ?_, successScript_records positive
        ({ redis with clock := time }.breaker webhookId)⟩
      simp only [breakerCall, refreshes, if_true]
      exact keeps_setBreaker { redis with clock := time } _
  | recordFailure =>
      have failed := (@failureScript_of_records threshold cooldown calls last
        time breaker records).2
      rw [← read, ← failureScript_getD] at failed
      refine ⟨_, ?_, failed⟩
      simp only [breakerCall, refreshes, if_true]
      exact keeps_setBreaker { redis with clock := time } _

/-- The breaker records the history of timely calls. -/
theorem keeps_afterBreakerCalls (positive : 1 ≤ threshold) (time : Int)
    (more : List TimedCall) {redis : Redis} {refreshed : Option Int}
    {breaker : Breaker} {calls : List TimedCall} {last : Int}
    (keeps : redis.Keeps webhookId refreshed breaker)
    (records : Records threshold cooldown calls last breaker)
    (timely : Timely webhookId threshold cooldown time more refreshed redis)
    (sorted : (last :: (more.map TimedCall.time ++ [time])).Pairwise
      (· ≤ ·)) :
    ∃ (refreshed : Option Int) (now : Breaker) (last : Int),
      (redis.afterBreakerCalls webhookId threshold cooldown more).Keeps
        webhookId refreshed now ∧
      Records threshold cooldown (calls ++ more) last now ∧
      last ≤ time ∧ ∀ since ∈ refreshed, time < since + stateTtlMs := by
  induction more generalizing redis refreshed breaker calls last with
  | nil =>
      have later : last ≤ time := by simpa using sorted
      exact ⟨refreshed, breaker, last, keeps, by simpa using records, later,
        timely⟩
  | cons timed more ih =>
      have ordered := List.pairwise_cons.mp sorted
      have later : last ≤ timed.time := ordered.1 _ (by simp)
      obtain ⟨now, keepsNow, recordsNow⟩ :=
        keeps_breakerCall positive keeps records timely.1 later
      have rest := ih keepsNow recordsNow timely.2 ordered.2
      rwa [List.append_assoc] at rest

end Redis

/-- The breaker answers every timely call from the failures since the last
success and the time of the latest of them. -/
theorem breaker_matches_history (redis : Redis) (webhookId : WebhookId)
    {threshold cooldown : Int} (positive : 1 ≤ threshold)
    (unseen : redis.circuits webhookId = none) (calls : List TimedCall)
    (time : Int)
    (sorted : (calls.map TimedCall.time ++ [time]).Pairwise (· ≤ ·))
    (timely : Redis.Timely webhookId threshold cooldown time calls none
      redis) :
    let reached := redis.afterBreakerCalls webhookId threshold cooldown calls
    let checked :=
      (reached.breakerCall webhookId threshold cooldown ⟨time, .check⟩).1
    let recorded := (reached.breakerCall webhookId threshold cooldown
      ⟨time, .recordFailure⟩).1
    let count : Int := Circuit.failures calls
    (checked = .closed ↔ count < threshold) ∧
      (checked = .halfOpen ↔ threshold ≤ count ∧
        ∃ latest ∈ Circuit.latestFailure calls, time - latest ≥ cooldown) ∧
      (checked = .opened ↔ threshold ≤ count ∧
        ∃ latest ∈ Circuit.latestFailure calls, time - latest < cooldown) ∧
      (recorded = .opened ↔ threshold ≤ count + 1) := by
  have start : redis.Keeps webhookId none {} := ⟨unseen, fun _ => rfl⟩
  obtain ⟨first, rest, times⟩ := List.exists_cons_of_ne_nil
    (List.append_ne_nil_of_right_ne_nil (calls.map TimedCall.time)
      (List.cons_ne_nil time []))
  have since : (first :: (calls.map TimedCall.time ++ [time])).Pairwise
      (· ≤ ·) := by
    refine List.pairwise_cons.mpr ⟨fun other member => ?_, sorted⟩
    rw [times] at sorted member
    rcases List.mem_cons.mp member with rfl | later
    · exact le_rfl
    · exact (List.pairwise_cons.mp sorted).1 other later
  obtain ⟨refreshed, breaker, last, keeps, records, later, lives⟩ :=
    Redis.keeps_afterBreakerCalls positive time calls start
      (@Circuit.Records.fresh _ _ [] _ positive rfl) timely since
  intro reached checked recorded count
  have read := keeps.read lives
  have answers : checked =
      Circuit.expected threshold cooldown calls time := by
    have scripted := (Circuit.checkScript_of_records records later).1
    rw [← read, ← Circuit.checkScript_getD] at scripted
    exact (Redis.checkCircuit_fst ..).trans scripted
  have fails : recorded = .opened ↔ threshold ≤ count + 1 := by
    have scripted := (@Circuit.failureScript_of_records threshold cooldown _ _
      time _ records).1
    rw [← read, ← Circuit.failureScript_getD] at scripted
    exact scripted
  rw [answers]
  unfold Circuit.expected
  by_cases below : count < threshold
  · have unreached : ¬threshold ≤ count := not_le.mpr below
    simp [count, below, unreached, fails]
  · have reached : threshold ≤ count := not_lt.mp below
    obtain ⟨latest, found⟩ :=
      @Circuit.exists_latestFailure calls (by omega)
    by_cases cooled : time - latest ≥ cooldown
    · have young : ¬time - latest < cooldown := not_lt.mpr cooled
      simp [count, below, reached, found, cooled, young, fails]
    · have young : time - latest < cooldown := not_le.mp cooled
      simp [count, below, reached, found, cooled, young, fails]

/-- Two failures open a breaker, a check after the cooldown tries again. -/
theorem breaker_matches_history_probed :
    let calls : List TimedCall := [⟨0, .recordFailure⟩,
      ⟨10, .recordFailure⟩, ⟨110, .check⟩, ⟨120, .recordFailure⟩]
    let reached := Redis.empty.afterBreakerCalls 1 2 100 calls
    let checked := (reached.breakerCall 1 2 100 ⟨150, .check⟩).1
    let recorded := (reached.breakerCall 1 2 100 ⟨150, .recordFailure⟩).1
    let count : Int := Circuit.failures calls
    (checked = .closed ↔ count < 2) ∧
      (checked = .halfOpen ↔ 2 ≤ count ∧
        ∃ latest ∈ Circuit.latestFailure calls, 150 - latest ≥ 100) ∧
      (checked = .opened ↔ 2 ≤ count ∧
        ∃ latest ∈ Circuit.latestFailure calls, 150 - latest < 100) ∧
      (recorded = .opened ↔ 2 ≤ count + 1) :=
  breaker_matches_history .empty 1 (by decide) rfl _ 150 (by decide)
    (by decide)

end WebhookDelivery
