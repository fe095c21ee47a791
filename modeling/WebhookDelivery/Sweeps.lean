import WebhookDelivery.Library.Backlog
import WebhookDelivery.ServiceOrder
import WebhookDelivery.Deliverability

/-!
# How long a job waits for the scheduler

`delayed` and `leases` are swept in batches, by schedulers that may come and go,
while workers and API calls go on writing them.  A job whose time has come is
put on `ready` as soon as the batches come to more than the entries before its
own, since everything that is put off from then on comes after it.
-/

namespace WebhookDelivery

open Concurrency SortedSets

variable {deployment : Deployment} {before after : State} {action : Action}
  {waiting : JobId × Int}

/-! ## What calls write -/

/-- The entry that a call writes into `delayed`. -/
def Call.delays? : Call → Option (JobId × Int)
  | .pushDelayed jobId runAtMs | .retryLater jobId runAtMs =>
      some (jobId, runAtMs)
  | _ => none

/-- The lease that a call records. -/
def Call.leases? : Call → Option (JobId × Int)
  | .zaddLease jobId expiry => some (jobId, expiry)
  | _ => none

theorem exec_delayed (deployment : Deployment) (choice : Choice) (call : Call)
    (store : Store) :
    (exec deployment choice call store).2.redis.delayed =
      match call.delays? with
      | some (jobId, runAtMs) => store.redis.delayed.insert jobId runAtMs
      | none => store.redis.delayed := by
  cases call with
  | brpoplpush =>
      simp only [exec, Redis.brpoplpush, Call.delays?]
      split <;> rfl
  | popDlq =>
      simp only [exec, Redis.popDlq, Call.delays?]
      split <;> rfl
  | setSlotNx key =>
      simp only [exec, Redis.setSlotNx, Call.delays?]
      split <;> rfl
  | checkCircuit webhookId now cooldownMs =>
      simp only [exec, Redis.checkCircuit, Call.delays?]
      split <;> rfl
  | take webhookId rate burst now cost =>
      simp only [exec, Redis.take, Call.delays?]
      split <;> rfl
  | _ => rfl

theorem exec_leases (deployment : Deployment) (choice : Choice) (call : Call)
    (store : Store) :
    (exec deployment choice call store).2.redis.leases =
      match call.leases?, call.releases? with
      | some (jobId, expiry), _ => store.redis.leases.insert jobId expiry
      | none, some jobId => store.redis.leases.remove jobId
      | none, none => store.redis.leases := by
  cases call with
  | brpoplpush =>
      simp only [exec, Redis.brpoplpush, Call.leases?, Call.releases?]
      split <;> rfl
  | popDlq =>
      simp only [exec, Redis.popDlq, Call.leases?, Call.releases?]
      split <;> rfl
  | setSlotNx key =>
      simp only [exec, Redis.setSlotNx, Call.leases?, Call.releases?]
      split <;> rfl
  | checkCircuit webhookId now cooldownMs =>
      simp only [exec, Redis.checkCircuit, Call.leases?, Call.releases?]
      split <;> rfl
  | take webhookId rate burst now cost =>
      simp only [exec, Redis.take, Call.leases?, Call.releases?]
      split <;> rfl
  | _ => rfl

/-! ## Waiting for a promotion -/

/-- The call of the action puts nothing off to before the waiting entry, and does
not put off the waiting job again. -/
def DelaysBehind (waiting : JobId × Int) (state : State) (action : Action) :
    Prop :=
  ∀ pid ∈ action.performer?, ∀ call ∈ state.pending? pid,
    ∀ entry ∈ call.delays?, Behind entry waiting

instance (waiting : JobId × Int) (state : State) (action : Action) :
    Decidable (DelaysBehind waiting state action) :=
  inferInstanceAs (Decidable (∀ pid ∈ action.performer?,
    ∀ call ∈ state.pending? pid, ∀ entry ∈ call.delays?, _))

/-- The places of a promotion for jobs due at this time. -/
def Action.promotes (due : Int) : Action → Nat
  | .promote nowMs batchSize => if due ≤ nowMs then batchSize else 0
  | _ => 0

theorem promoted_or_forward
    (delayed : before.store.redis.delayed.score? waiting.1 = some waiting.2)
    (behind : DelaysBehind waiting before action)
    (taken : step deployment before action = some after) :
    (∃ nowMs batchSize, action = .promote nowMs batchSize ∧
      waiting.2 ≤ nowMs ∧
      waiting.1 ∈ before.store.redis.delayed.rangeByScore nowMs batchSize) ∨
    after.store.redis.delayed.score? waiting.1 = some waiting.2 ∧
      after.store.redis.delayed.ahead waiting + action.promotes waiting.2 ≤
        before.store.redis.delayed.ahead waiting := by
  cases steps_of_step taken with
  | @performed _ pid choice process call next rescue resumed found running
      connected resumes =>
      right
      have none : action.promotes waiting.2 = 0 := by cases resumes <;> rfl
      have behind := behind pid resumes.performer?.1 call
        (State.pending?_of_running found running)
      rw [none, State.perform_store, exec_delayed, Nat.add_zero]
      cases delays : call.delays? with
      | none => exact ⟨delayed, le_rfl⟩
      | some entry =>
          have after := behind entry delays
          refine ⟨?_, SortedSet.ahead_insert_le after⟩
          rw [SortedSet.score?_insert, if_neg after.1.symm]
          exact delayed
  | @promoted nowMs batchSize =>
      rcases SortedSet.swept delayed nowMs batchSize with listed | kept
      · exact .inl ⟨nowMs, batchSize, rfl,
          SortedSet.le_of_mem_rangeByScore delayed listed, listed⟩
      · right
        simp only [Store.withRedis, Redis.promoteScript, Redis.foldl_promoteOne]
        exact kept
  | reaped =>
      right
      simp only [State.reap, Store.withRedis, Redis.reapScript,
        Redis.foldl_reapOne]
      exact ⟨delayed, le_rfl⟩
  | start | failed | crashed | shutdown | ticked | registered | deleted =>
      exact .inr ⟨delayed, le_rfl⟩

/-- A delayed job is put on `ready` by one of the promotions of a run as soon
as the promotions at its time or later come to more places than there were
entries before its own, whatever happens in between: as long as nothing is put
off to before it, and it is not put off itself. -/
theorem promoted_in_turn {more : List Action}
    (delayed : before.store.redis.delayed.score? waiting.1 = some waiting.2)
    (runs : run (step deployment) before more = some after)
    (behind : ∀ transition ∈ transitions (step deployment) before more,
      DelaysBehind waiting transition.before transition.action)
    (enough : before.store.redis.delayed.ahead waiting <
      (more.map (Action.promotes waiting.2)).sum) :
    ∃ transition ∈ transitions (step deployment) before more,
      ∃ nowMs batchSize, transition.action = .promote nowMs batchSize ∧
        waiting.2 ≤ nowMs ∧ waiting.1 ∈ readied transition := by
  have served := served_of_batches
    (fun state : State =>
      state.store.redis.delayed.score? waiting.1 = some waiting.2)
    (fun state : State => state.store.redis.delayed.ahead waiting)
    (Action.promotes waiting.2) (DelaysBehind waiting)
    (fun transition => ∃ nowMs batchSize,
      transition.action = .promote nowMs batchSize ∧ waiting.2 ≤ nowMs ∧
        waiting.1 ∈
          transition.before.store.redis.delayed.rangeByScore nowMs batchSize)
    promoted_or_forward runs delayed behind enough
  obtain ⟨transition, member, nowMs, batchSize, promotes, due, listed⟩ := served
  refine ⟨transition, member, nowMs, batchSize, promotes, due, ?_⟩
  rw [readied, promotes]
  exact listed

/-- Jobs 2 and 3 are created. -/
def enqueueTwo : List Action :=
  enqueueOne ++ [.start 5 (.enqueue exampleEvent), .call 5 {},
    .call 5 { uuid := 3 }] ++ calls 5 2

/-- Both jobs fail and are delayed to time 0. -/
def bothDelayed : List Action :=
  enqueueTwo ++ deliverOnce 1 500 9 ++ deliverOnce 2 500 9

/-- The first promotion takes job 2, which is claimed again before the
second. -/
def oneAtATime : List Action :=
  .promote 0 1 :: calls 1 4 ++ [.promote 4000 1]

theorem promoted_in_turn_bothDelayed :
    ∃ before after, run (step {}) State.initial bothDelayed = some before ∧
      run (step {}) before oneAtATime = some after ∧
      ∃ transition ∈ transitions (step {}) before oneAtATime,
        ∃ nowMs batchSize, transition.action = .promote nowMs batchSize ∧
          (0 : Int) ≤ nowMs ∧ 3 ∈ readied transition := by
  have evaluated : (run (step {}) State.initial bothDelayed).map
      (fun before =>
        (decide (before.store.redis.delayed.score? 3 = some 0 ∧
            (∀ transition ∈ transitions (step {}) before oneAtATime,
              DelaysBehind (3, 0) transition.before transition.action) ∧
            before.store.redis.delayed.ahead (3, 0) <
              (oneAtATime.map (Action.promotes 0)).sum),
          (run (step {}) before oneAtATime).isSome)) =
        some (true, true) := by decide +kernel
  obtain ⟨before, starts, found⟩ := Option.map_eq_some_iff.mp evaluated
  obtain ⟨ready, ends⟩ := Prod.mk.inj found
  obtain ⟨delayed, behind, enough⟩ := of_decide_eq_true ready
  obtain ⟨after, runs⟩ := Option.isSome_iff_exists.mp ends
  exact ⟨before, after, starts, runs,
    @promoted_in_turn {} before after (3, 0) oneAtATime delayed runs behind
      enough⟩

/-! ## Waiting for the reaper -/

/-- The call of the action leaves the waiting lease alone, and leases nothing
to before it. -/
def LeasesBehind (waiting : JobId × Int) (state : State) (action : Action) :
    Prop :=
  ∀ pid ∈ action.performer?, ∀ call ∈ state.pending? pid,
    call.releases? ≠ some waiting.1 ∧
      ∀ entry ∈ call.leases?, Behind entry waiting

instance (waiting : JobId × Int) (state : State) (action : Action) :
    Decidable (LeasesBehind waiting state action) :=
  inferInstanceAs (Decidable (∀ pid ∈ action.performer?,
    ∀ call ∈ state.pending? pid, _ ∧ ∀ entry ∈ call.leases?, _))

/-- The places of a reap of leases that have expired at this time. -/
def Action.reaps (expiry : Int) : Action → Nat
  | .reap nowMs batchSize => if expiry ≤ nowMs then batchSize else 0
  | _ => 0

theorem reaped_or_forward
    (leased : before.store.redis.leases.score? waiting.1 = some waiting.2)
    (behind : LeasesBehind waiting before action)
    (taken : step deployment before action = some after) :
    (∃ nowMs batchSize, action = .reap nowMs batchSize ∧
      waiting.2 ≤ nowMs ∧
      waiting.1 ∈ before.store.redis.leases.rangeByScore nowMs batchSize) ∨
    after.store.redis.leases.score? waiting.1 = some waiting.2 ∧
      after.store.redis.leases.ahead waiting + action.reaps waiting.2 ≤
        before.store.redis.leases.ahead waiting := by
  cases steps_of_step taken with
  | @performed _ pid choice process call next rescue resumed found running
      connected resumes =>
      right
      have none : action.reaps waiting.2 = 0 := by cases resumes <;> rfl
      obtain ⟨kept, behind⟩ := behind pid resumes.performer?.1 call
        (State.pending?_of_running found running)
      rw [none, State.perform_store, exec_leases, Nat.add_zero]
      cases leases : call.leases? with
      | some entry =>
          have after := behind entry leases
          refine ⟨?_, SortedSet.ahead_insert_le after⟩
          rw [SortedSet.score?_insert, if_neg after.1.symm]
          exact leased
      | none =>
          cases releases : call.releases? with
          | none => exact ⟨leased, le_rfl⟩
          | some other =>
              refine ⟨?_, SortedSet.ahead_remove_le other⟩
              rw [releases] at kept
              rw [SortedSet.score?_remove, if_neg fun same =>
                kept (congrArg some same.symm)]
              exact leased
  | promoted =>
      right
      simp only [Store.withRedis, Redis.promoteScript, Redis.foldl_promoteOne]
      exact ⟨leased, le_rfl⟩
  | @reaped nowMs batchSize =>
      rcases SortedSet.swept leased nowMs batchSize with listed | kept
      · exact .inl ⟨nowMs, batchSize, rfl,
          SortedSet.le_of_mem_rangeByScore leased listed, listed⟩
      · right
        simp only [State.reap, Store.withRedis, Redis.reapScript,
          Redis.foldl_reapOne]
        exact kept
  | start | failed | crashed | shutdown | ticked | registered | deleted =>
      exact .inr ⟨leased, le_rfl⟩

/-- Two workers die with the jobs that they have claimed. -/
def bothAbandoned : List Action :=
  enqueueTwo ++ .start 1 .worker :: calls 1 3 ++ .start 2 .worker ::
    calls 2 3 ++ [.crash 1, .crash 2]

/-- A third worker claims the job that the first reap brings back, before the
second. -/
def claimedBetween : List Action :=
  [.reap 60000 1, .start 3 .worker] ++
    List.replicate 3 (.call 3 { now := 60000 }) ++ [.reap 60000 1]

end WebhookDelivery
