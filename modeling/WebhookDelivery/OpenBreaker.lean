import WebhookDelivery.Cooldowns
import WebhookDelivery.Pacing

/-!
# What an open breaker holds back

The breaker is asked early in a pass and the request is sent late, and many
workers share it.  From the failure that opens it on, and until the cooldown is
over or a success is recorded, only those workers send requests to the webhook
that the breaker has let by before, each of them one.
-/

namespace WebhookDelivery

open Concurrency

variable {deployment : Deployment} {before after : State} {action : Action}

/-! ## Workers past the breaker -/

/-- Whether a process is past the breaker of the webhook after a call, where
the call decides it. -/
def Entry.passes? (webhookId : WebhookId) : Entry → Option Bool
  | ⟨.checkCircuit id _ _, .ok state⟩ =>
      if id = webhookId ∧ state ≠ .opened then some true else none
  | ⟨.fetch _, _⟩ | ⟨.brpoplpush, _⟩ => some false
  | _ => none

/-- The leave that the breaker of the webhook gives to go on. -/
abbrev leaves (webhookId : WebhookId) : Permits.Scheme Event Pid :=
  permits (Entry.passes? webhookId)

theorem Pass.passing_calls (pass : Pass) (cleared : pass.Cleared)
    (earlier : List Entry) :
    Permits.holding (Entry.passes? pass.job.webhookId)
      (pass.calls deployment ++ earlier) = true := by
  simp [Permits.holding, calls, preparing, taking, checking, Entry.passes?,
    cleared.closed]

/-! ## The open breaker -/

/-- The breaker has been opened at `since` or later, and its key lives until
the cooldown is over. -/
structure Redis.Shut (webhookId : WebhookId) (threshold since cooldownMs : Int)
    (redis : Redis) : Prop where
  stored : ∃ breaker openedAt expiresAt,
    Circuit.Opened threshold openedAt breaker ∧ since ≤ openedAt ∧
      since + cooldownMs ≤ expiresAt ∧
        redis.circuits webhookId = some ⟨breaker, some expiresAt⟩
  lasting : since + cooldownMs ≤ redis.clock + Circuit.stateTtlMs

/-- No success of the webhook is recorded, and its breaker is called during the
cooldown. -/
def Call.cools (webhookId : WebhookId) (since cooldownMs clock : Int) :
    Call → Bool
  | .checkCircuit id time _ => id ≠ webhookId ||
      time < since + cooldownMs && clock < since + cooldownMs
  | .recordFailure id _ time => id ≠ webhookId ||
      since ≤ time && clock < since + cooldownMs
  | .recordSuccess id => id ≠ webhookId
  | _ => true

/-- The call that the action performs is one of these. -/
def Cooling (webhookId : WebhookId) (since cooldownMs : Int) (state : State)
    (action : Action) : Prop :=
  ∀ pid ∈ action.performer?, ∀ call ∈ state.pending? pid,
    call.cools webhookId since cooldownMs state.store.redis.clock = true

instance (webhookId : WebhookId) (since cooldownMs : Int) (state : State)
    (action : Action) :
    Decidable (Cooling webhookId since cooldownMs state action) :=
  inferInstanceAs (Decidable (∀ pid ∈ action.performer?,
    ∀ call ∈ state.pending? pid, _))

namespace Redis.Shut

variable {webhookId : WebhookId} {threshold since cooldownMs : Int}
  {redis other : Redis}

/-- Other keys and the passing of time do not matter. -/
theorem mono (shut : redis.Shut webhookId threshold since cooldownMs)
    (same : other.circuits webhookId = redis.circuits webhookId)
    (passes : redis.clock ≤ other.clock) :
    other.Shut webhookId threshold since cooldownMs where
  stored := by
    rw [same]
    exact shut.stored
  lasting := by
    have := shut.lasting
    omega

/-- What a call reads during the cooldown. -/
theorem breaker (shut : redis.Shut webhookId threshold since cooldownMs)
    (early : redis.clock < since + cooldownMs) :
    ∃ breaker openedAt, redis.breaker webhookId = some breaker ∧
      Circuit.Opened threshold openedAt breaker ∧ since ≤ openedAt := by
  obtain ⟨breaker, openedAt, expiresAt, opened, newer, lives, stored⟩ :=
    shut.stored
  exact ⟨breaker, openedAt, Redis.breaker_of_stored stored (by omega), opened,
    newer⟩

/-- A check during the cooldown says open, and writes nothing. -/
theorem check (shut : redis.Shut webhookId threshold since cooldownMs)
    (early : redis.clock < since + cooldownMs) {now : Int}
    (young : now < since + cooldownMs) :
    redis.checkCircuit webhookId now cooldownMs = (.opened, redis) := by
  obtain ⟨breaker, openedAt, read, opened, newer⟩ := shut.breaker early
  have still : now < openedAt + cooldownMs := by omega
  simp only [Redis.checkCircuit, read, opened.checkScript still]

/-- A failure that opens the breaker, or reopens it. -/
theorem of_failure {now : Int}
    (opens : (redis.recordFailure webhookId threshold now).1 = .opened)
    (newer : since ≤ now)
    (lasting : since + cooldownMs ≤ redis.clock + Circuit.stateTtlMs) :
    (redis.recordFailure webhookId threshold now).2.Shut webhookId threshold
      since cooldownMs where
  stored := by
    refine ⟨_, now, _, Circuit.opened_of_failureScript opens, newer, lasting,
      ?_⟩
    simp [Redis.recordFailure, Redis.setBreaker, Expiring.pexpire,
      Circuit.stateTtlMs]
  lasting := lasting

theorem failure (shut : redis.Shut webhookId threshold since cooldownMs)
    (early : redis.clock < since + cooldownMs) {now : Int}
    (newer : since ≤ now) :
    (redis.recordFailure webhookId threshold now).2.Shut webhookId threshold
      since cooldownMs := by
  obtain ⟨breaker, openedAt, read, opened, _⟩ := shut.breaker early
  refine of_failure ?_ newer shut.lasting
  simp only [Redis.recordFailure, read]
  exact opened.failureScript now

end Redis.Shut

/-! ## The cooldown in a run -/

/-- The breaker that a call reads or writes. -/
def Call.breaker? : Call → Option WebhookId
  | .checkCircuit id _ _ | .recordSuccess id | .recordFailure id _ _ => some id
  | _ => none

/-- What the breaker of a webhook keeps. -/
def Redis.SameBreaker (webhookId : WebhookId) (redis other : Redis) : Prop :=
  redis.circuits webhookId = other.circuits webhookId ∧
    redis.clock = other.clock

/-- Only the three scripts write a breaker. -/
theorem exec_sameBreaker (deployment : Deployment) (choice : Choice)
    {call : Call} (store : Store) {webhookId : WebhookId}
    (other : call.breaker? ≠ some webhookId) :
    (exec deployment choice call store).2.redis.SameBreaker webhookId
      store.redis := by
  have elsewhere : ∀ {id}, call.breaker? = some id → webhookId ≠ id := by
    intro id asks same
    exact other (same ▸ asks)
  cases call with
  | brpoplpush =>
      simp only [exec, Redis.brpoplpush]
      split <;> exact ⟨rfl, rfl⟩
  | popDlq =>
      simp only [exec, Redis.popDlq]
      split <;> exact ⟨rfl, rfl⟩
  | setSlotNx name =>
      simp only [exec, Redis.setSlotNx]
      split <;> exact ⟨rfl, rfl⟩
  | take id rate burst now cost =>
      simp only [exec, Redis.take]
      split <;> exact ⟨rfl, rfl⟩
  | checkCircuit id now cooldownMs =>
      simp only [exec, Redis.checkCircuit]
      split
      · exact ⟨rfl, rfl⟩
      · exact ⟨Function.update_of_ne (elsewhere rfl) .., rfl⟩
  | recordSuccess id => exact ⟨Function.update_of_ne (elsewhere rfl) .., rfl⟩
  | recordFailure id threshold now =>
      exact ⟨Function.update_of_ne (elsewhere rfl) .., rfl⟩
  | _ => exact ⟨rfl, rfl⟩

/-- Only a check gives leave to go on. -/
theorem passes?_of_other {webhookId : WebhookId} {call : Call}
    {outcome : Except AppError call.Reply}
    (other : call.breaker? ≠ some webhookId) :
    Entry.passes? webhookId ⟨call, outcome⟩ ≠ some true := by
  cases call with
  | checkCircuit id now cooldownMs =>
      have distinct : id ≠ webhookId := fun same => other (congrArg some same)
      cases outcome with
      | ok state => simp [Entry.passes?, distinct]
      | error failure => exact nofun
  | _ => exact nofun

/-- A call that opens the breaker leaves it so. -/
theorem Redis.Shut.of_trip {webhookId : WebhookId} {threshold since : Int}
    {pid : Pid} {choice : Choice}
    (about : before.pending? pid =
      some (.recordFailure webhookId threshold since))
    (trips : (before.store.redis.recordFailure webhookId threshold since).1 =
      .opened)
    (lasting : since + deployment.cooldownMs ≤
      before.store.redis.clock + Circuit.stateTtlMs)
    (taken : WebhookDelivery.step deployment before (.call pid choice) =
      some after) :
    after.store.redis.Shut webhookId threshold since
      deployment.cooldownMs := by
  rcases history_of_step taken with ⟨_, idle⟩ | ⟨_, _, _, fails⟩ |
    ⟨other, choice, call, performs, pending, store, _⟩
  · cases idle
  · cases fails
  · cases performs
    cases about.symm.trans pending
    rw [store]
    exact of_failure trips le_rfl lasting

/-- A step of the cooldown keeps the breaker open, and gives nobody leave. -/
theorem Redis.Shut.step {webhookId : WebhookId} {since : Int}
    (shut : before.store.redis.Shut webhookId deployment.failureThreshold since
      deployment.cooldownMs)
    (invariant : PassInvariant deployment before)
    (cooling : Cooling webhookId since deployment.cooldownMs before action)
    (taken : WebhookDelivery.step deployment before action = some after) :
    ∃ window, after.history = window ++ before.history ∧
      after.store.redis.Shut webhookId deployment.failureThreshold since
        deployment.cooldownMs ∧ (leaves webhookId).granted window = 0 := by
  cases steps_of_step taken with
  | @performed _ pid choice process call next rescue resumed found running
      connected resumes =>
      have pending := State.pending?_of_running found running
      have cool := cooling pid resumes.performer?.1 call pending
      have checked := invariant.disciplined.allowed pending
      suffices kept : (exec deployment choice call before.store).2.redis.Shut
          webhookId deployment.failureThreshold since deployment.cooldownMs ∧
            Entry.passes? webhookId
              ⟨call, (exec deployment choice call before.store).1⟩ ≠
                some true by
        refine ⟨[⟨pid, call, (exec deployment choice call before.store).1⟩],
          rfl, State.perform_store .. ▸ kept.1, ?_⟩
        rw [Permits.Scheme.granted, List.countP_eq_zero]
        intro event member grants
        cases List.mem_singleton.mp member
        exact kept.2 (of_decide_eq_true grants)
      by_cases own : call.breaker? = some webhookId
      · cases call with
        | checkCircuit id time cooldownMs =>
            cases own
            cases checked
            obtain ⟨young, early⟩ : time < since + deployment.cooldownMs ∧
                before.store.redis.clock < since + deployment.cooldownMs := by
              simpa [Call.cools] using cool
            simp only [exec, shut.check early young]
            exact ⟨shut, by simp [Entry.passes?]⟩
        | recordSuccess id =>
            cases own
            simp [Call.cools] at cool
        | recordFailure id threshold time =>
            cases own
            cases checked
            obtain ⟨newer, early⟩ : since ≤ time ∧
                before.store.redis.clock < since + deployment.cooldownMs := by
              simpa [Call.cools] using cool
            exact ⟨shut.failure early newer, by simp [Entry.passes?]⟩
        | _ => cases own
      · have same := exec_sameBreaker deployment choice before.store own
        exact ⟨shut.mono same.1 same.2.ge, passes?_of_other own⟩
  | promoted =>
      exact ⟨[], rfl, List.foldlRecOn _ Redis.promoteOne shut
        fun _ kept _ _ => kept.mono rfl le_rfl, rfl⟩
  | reaped =>
      exact ⟨[], rfl, List.foldlRecOn _ Redis.reapOne shut
        fun _ kept _ _ => kept.mono rfl le_rfl, rfl⟩
  | @ticked ms =>
      exact ⟨[], rfl, shut.mono rfl (Int.le_add_of_nonneg_right
        (Int.natCast_nonneg ms)), rfl⟩
  | start | failed | crashed | shutdown | registered | deleted =>
      exact ⟨[], rfl, shut, rfl⟩

/-- Nobody is given leave during the cooldown. -/
theorem Redis.Shut.run {webhookId : WebhookId} {since : Int}
    (shut : before.store.redis.Shut webhookId deployment.failureThreshold since
      deployment.cooldownMs)
    (invariant : PassInvariant deployment before) {actions : List Action}
    (runs : Concurrency.run (WebhookDelivery.step deployment) before actions =
      some after)
    (cooling : ∀ transition ∈
      transitions (WebhookDelivery.step deployment) before actions,
        Cooling webhookId since deployment.cooldownMs transition.before
          transition.action) :
    ∃ window, after.history = window ++ before.history ∧
      (leaves webhookId).granted window = 0 := by
  refine (leaves webhookId).ungranted_of_run (fun state =>
    PassInvariant deployment state ∧
      state.store.redis.Shut webhookId deployment.failureThreshold since
        deployment.cooldownMs) ?_ ⟨invariant, shut⟩ runs cooling
  intro before action after kept cooling taken
  obtain ⟨window, grows, still, free⟩ :=
    kept.2.step kept.1 cooling taken
  exact ⟨window, grows, ⟨kept.1.step taken, still⟩, free⟩

/-- When a failure opens the breaker of a webhook, whose key then outlives the
cooldown: as long as the breaker is called within the cooldown and no success
of the webhook is recorded, whatever else happens, a worker that the breaker
had let by before sends at most one request to the webhook, and every other
worker sends none. -/
theorem held_back_by_breaker {first second : List Action} {opening : State}
    {webhookId : WebhookId} {threshold since : Int} {pid : Pid}
    {choice : Choice}
    (starts : run (step deployment) State.initial first = some opening)
    (about : opening.pending? pid =
      some (.recordFailure webhookId threshold since))
    (trips : (opening.store.redis.recordFailure webhookId threshold since).1 =
      .opened)
    (lasting : since + deployment.cooldownMs ≤
      opening.store.redis.clock + Circuit.stateTtlMs)
    (opens : step deployment opening (.call pid choice) = some before)
    (runs : run (step deployment) before second = some after)
    (cooling : ∀ transition ∈ transitions (step deployment) before second,
      Cooling webhookId since deployment.cooldownMs transition.before
        transition.action) (worker : Pid) :
    sentTo webhookId worker after.history ≤
      sentTo webhookId worker before.history +
        if Permits.holding (Entry.passes? webhookId) (before.log worker) = true
          then 1 else 0 := by
  have invariant := PassInvariant.of_run starts
  have same : threshold = deployment.failureThreshold :=
    invariant.disciplined.allowed about
  subst same
  have shut := Redis.Shut.of_trip about trips lasting opens
  obtain ⟨window, grows, free⟩ :=
    shut.run (invariant.step opens) runs cooling
  have whole : run (step deployment) State.initial
      (first ++ .call pid choice :: second) = some after := by
    rw [run_append starts, run, opens]
    exact runs
  exact sentTo_le grows (paid_of_run whole Pass.passing_calls
    (fun _ _ _ => rfl) webhookId) free worker

/-- Worker 2 is past the breaker when the failure of worker 1 opens it. -/
def aboutToTrip : List Action :=
  enqueueOne ++ [.start 5 (.enqueue exampleEvent), .call 5 {},
    .call 5 { uuid := 3 }] ++ calls 5 2 ++ .start 2 .worker :: calls 2 6 ++
      deliverOnce 1 500 4

/-- Worker 2 goes on to send its request, and worker 1 is turned away. -/
def sinceTrip : List Action :=
  calls 2 8 ++ .call 2 { response := .ok 500 } :: calls 2 4 ++ calls 1 4 ++
    .promote 4000 100 :: calls 1 6

theorem held_back_by_breaker_twoWorkers :
    ∃ opening before after,
      run (step { failureThreshold := 1 }) State.initial aboutToTrip =
          some opening ∧
        step { failureThreshold := 1 } opening (.call 1 {}) = some before ∧
          run (step { failureThreshold := 1 }) before sinceTrip = some after ∧
            sentTo 1 2 after.history = 1 ∧
              sentTo 1 2 after.history ≤ sentTo 1 2 before.history +
                if Permits.holding (Entry.passes? 1) (before.log 2) = true
                  then 1 else 0 := by
  have evaluated : (run (step { failureThreshold := 1 }) State.initial
      aboutToTrip).map (fun opening =>
        (decide (opening.pending? 1 = some (.recordFailure 1 1 0) ∧
            (opening.store.redis.recordFailure 1 1 0).1 = .opened ∧
              0 ≤ opening.store.redis.clock),
          (step { failureThreshold := 1 } opening (.call 1 {})).map
            fun before => (decide (∀ transition ∈
                transitions (step { failureThreshold := 1 }) before sinceTrip,
                  Cooling 1 0 30000 transition.before transition.action),
              (run (step { failureThreshold := 1 }) before sinceTrip).map
                fun after => sentTo 1 2 after.history))) =
          some (true, some (true, some 1)) := by decide +kernel
  obtain ⟨opening, starts, found⟩ := Option.map_eq_some_iff.mp evaluated
  obtain ⟨ready, found⟩ := Prod.mk.inj found
  obtain ⟨about, trips, clock⟩ := of_decide_eq_true ready
  obtain ⟨before, opens, found⟩ := Option.map_eq_some_iff.mp found
  obtain ⟨cooling, found⟩ := Prod.mk.inj found
  obtain ⟨after, runs, sent⟩ := Option.map_eq_some_iff.mp found
  have lasting : (0 : Int) + 30000 ≤
      opening.store.redis.clock + Circuit.stateTtlMs := by
    rw [Circuit.stateTtlMs]
    omega
  exact ⟨opening, before, after, starts, opens, runs, sent,
    held_back_by_breaker starts about trips lasting opens runs
      (of_decide_eq_true cooling) 2⟩

end WebhookDelivery
