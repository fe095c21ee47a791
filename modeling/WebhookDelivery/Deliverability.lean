import WebhookDelivery.Undisturbed
import WebhookDelivery.ServiceOrder
import WebhookDelivery.TokenBucket
import Mathlib.Data.List.Induction

/-!
# No dead ends

Whatever processes have crashed, failed or been overruled, and however late
their calls took effect: a job that still is in one of the structures can be
delivered.  The scheduler brings it back to `ready`, new workers take over the
jobs ahead of it, and one more worker delivers it.
-/

namespace WebhookDelivery

open Concurrency

/-- The system goes on without faults at one time: workers and replays are
started, calls are answered, the scheduler runs its scripts. -/
def Action.Onward (now : Int) : Action → Prop
  | .start _ .worker | .start _ (.replay _) => True
  | .call _ choice => choice.now = now
  | .promote nowMs _ | .reap nowMs _ => nowMs = now
  | _ => False

/-- From some process id on all of them are free. -/
def State.HasRoom (state : State) : Prop :=
  ∃ bound : Nat, ∀ pid : Nat, bound ≤ pid → state.processes pid = none

/-- The system can go on from one state to the other, at the time `now` and
without touching webhooks, breakers and buckets. -/
structure Onward (deployment : Deployment) (now : Int) (before after : State) :
    Prop where
  taken : ∃ more, run (step deployment) before more = some after ∧
    ∀ action ∈ more, action.Onward now
  webhooks : after.store.db.webhooks = before.store.db.webhooks
  breaker : after.store.redis.breaker = before.store.redis.breaker
  bucket : after.store.redis.bucket = before.store.redis.bucket

variable {deployment : Deployment} {now : Int} {before middle after : State}

theorem State.HasRoom.step {action : Action} (room : before.HasRoom)
    (taken : WebhookDelivery.step deployment before action = some after) :
    after.HasRoom := by
  obtain ⟨bound, free⟩ := room
  have updated : ∀ {pid : Nat} {process : Option Process} {other : Nat},
      max bound (pid + 1) ≤ other →
        Function.update before.processes pid process other = none := by
    intro pid process other above
    have distinct : other ≠ pid := by omega
    rw [Function.update_of_ne distinct]
    exact free other (by omega)
  cases steps_of_step taken with
  | start unused => exact ⟨_, fun _ => updated⟩
  | performed found running connected resumes => exact ⟨_, fun _ => updated⟩
  | failed found running => exact ⟨_, fun _ => updated⟩
  | crashed found live => exact ⟨_, fun _ => updated⟩
  | shutdown found => exact ⟨_, fun _ => updated⟩
  | reaped =>
      refine ⟨bound, fun pid above => ?_⟩
      simp [State.reap, free pid above]
  | promoted | ticked | registered _ | deleted => exact ⟨bound, free⟩

theorem State.HasRoom.run {actions : List Action} (room : before.HasRoom)
    (runs : Concurrency.run (WebhookDelivery.step deployment) before actions =
      some after) :
    after.HasRoom :=
  invariant_of_run runs room fun _ _ _ room taken => room.step taken

namespace Redis

/-- A run of the reaper writes three of the structures. -/
theorem foldl_reapOne (redis : Redis) (jobIds : List JobId) :
    jobIds.foldl reapOne redis =
      { redis with
        leases := jobIds.foldl SortedSets.SortedSet.remove redis.leases
        inflight := jobIds.foldl List.erase redis.inflight
        ready := jobIds.reverse ++ redis.ready } := by
  induction jobIds generalizing redis with
  | nil => rfl
  | cons jobId jobIds ih =>
      rw [List.foldl_cons, ih]
      simp [reapOne]

end Redis

namespace Onward

theorem refl : Onward deployment now before before where
  taken := ⟨[], rfl, by simp⟩
  webhooks := rfl
  breaker := rfl
  bucket := rfl

theorem trans (first : Onward deployment now before middle)
    (second : Onward deployment now middle after) :
    Onward deployment now before after where
  taken := by
    obtain ⟨more, runs, smooth⟩ := first.taken
    obtain ⟨rest, runsOn, smoothOn⟩ := second.taken
    refine ⟨more ++ rest, (run_append runs rest).trans runsOn, ?_⟩
    intro action member
    rcases List.mem_append.mp member with earlier | later
    · exact smooth action earlier
    · exact smoothOn action later
  webhooks := second.webhooks.trans first.webhooks
  breaker := second.breaker.trans first.breaker
  bucket := second.bucket.trans first.bucket

theorem room (onward : Onward deployment now before after)
    (room : before.HasRoom) : after.HasRoom := by
  obtain ⟨more, runs, _⟩ := onward.taken
  exact room.run runs

/-- The reaper brings back every job with a lease. -/
theorem of_leased {jobId : JobId} {score : Int}
    (leased : before.store.redis.leases.score? jobId = some score)
    (expired : score ≤ now) :
    ∃ after, Onward deployment now before after ∧
      after.store.db = before.store.db ∧
      jobId ∈ after.store.redis.ready := by
  let size := (before.store.redis.leases.upTo now).length
  have listed : jobId ∈ before.store.redis.leases.rangeByScore now size := by
    rw [SortedSets.SortedSet.rangeByScore_eq, List.take_length,
      SortedSets.SortedSet.mem_upTo_iff]
    exact ⟨score, leased, expired⟩
  have script : (before.store.redis.reapScript now size).2 = _ :=
    Redis.foldl_reapOne _ _
  refine ⟨before.reap now size, ⟨⟨[.reap now size], rfl, ?_⟩, rfl, ?_, ?_⟩,
    rfl, ?_⟩
  · simp [Action.Onward]
  · simp only [State.reap, Store.withRedis, script]
    rfl
  · simp only [State.reap, Store.withRedis, script]
    rfl
  · simp [State.reap, Store.withRedis, script, listed]

/-- Promotion brings back every delayed job. -/
theorem of_delayed {jobId : JobId} {score : Int}
    (delayed : before.store.redis.delayed.score? jobId = some score)
    (due : score ≤ now) :
    ∃ after, Onward deployment now before after ∧
      after.store.db = before.store.db ∧
      jobId ∈ after.store.redis.ready := by
  let size := (before.store.redis.delayed.upTo now).length
  have listed : jobId ∈ before.store.redis.delayed.rangeByScore now size := by
    rw [SortedSets.SortedSet.rangeByScore_eq, List.take_length,
      SortedSets.SortedSet.mem_upTo_iff]
    exact ⟨score, delayed, due⟩
  have script : (before.store.redis.promoteScript now size).2 = _ :=
    Redis.foldl_promoteOne _ _
  refine ⟨_, ⟨⟨[.promote now size], rfl, ?_⟩, rfl, ?_, ?_⟩, rfl, ?_⟩
  · simp [Action.Onward]
  · simp only [Store.withRedis, script]
    rfl
  · simp only [Store.withRedis, script]
    rfl
  · simp [Store.withRedis, script, listed]

/-- A new process is started and makes its first call. -/
theorem start_and_call {pid : Pid} {role : Role} {call : Call}
    {next : call.Reply → Async Result} {rescue : AppError → Async Result}
    (free : before.processes pid = none)
    (first : role.main deployment = .call call next rescue) (choice : Choice) :
    ∃ after, run (step deployment) before
        [.start pid role, .call pid choice] = some after ∧
      after.store = (exec deployment choice call before.store).2 := by
  have started : step deployment before (.start pid role) =
      some (before.setProcess pid (.spawn deployment role)) := by
    simp only [step, free]
  have spawned : Process.spawn deployment role =
      { role := role, status := .running (.call call next rescue)
        claim := .none, quit := false, severed := false } := by
    unfold Process.spawn Process.proceed
    rw [first]
  have connected : (Process.spawn deployment role).connected call = true := by
    rw [spawned]
    cases call <;> rfl
  have called : step deployment (before.setProcess pid
      (.spawn deployment role)) (.call pid choice) =
        some ((before.setProcess pid (.spawn deployment role)).perform
          deployment pid choice call ((Process.spawn deployment role).replied
            deployment next rescue)) := by
    rw [spawned] at connected ⊢
    simp only [step, State.setProcess_self]
    exact if_pos connected
  exact ⟨_, Option.bind_eq_some_iff.mpr ⟨_, started,
    Option.bind_eq_some_iff.mpr ⟨_, called, rfl⟩⟩, rfl⟩

/-- A list of ids whose right end the first call of a role takes off. -/
structure Taking (deployment : Deployment) (now : Int) (role : Role)
    (call : Call) (waiting : Redis → List JobId) : Prop where
  starts : ∀ pid, (Action.start pid role).Onward now
  first : ∃ next rescue, role.main deployment = .call call next rescue
  takes : ∀ {store : Store} {rest : List JobId} {last : JobId},
    waiting store.redis = rest ++ [last] →
      let after := (exec deployment { now := now } call store).2
      waiting after.redis = rest ∧ after.db = store.db ∧
        after.redis.breaker = store.redis.breaker ∧
          after.redis.bucket = store.redis.bucket

theorem taking_ready :
    Taking deployment now .worker .brpoplpush Redis.ready where
  starts _ := trivial
  first := ⟨_, _, rfl⟩
  takes {store} _ _ split := by
    simp only [exec, Redis.brpoplpush_of_ready store.redis split,
      Store.withRedis]
    exact ⟨trivial, trivial, rfl, rfl⟩

theorem taking_dlq : Taking deployment now (.replay 1) .popDlq Redis.dlq where
  starts _ := trivial
  first := ⟨_, _, rfl⟩
  takes split := by
    simp only [exec, Redis.popDlq, split, List.getLast?_append,
      Store.withRedis]
    simp only [List.getLast?_singleton, Option.some_or, List.dropLast_concat]
    exact ⟨trivial, trivial, rfl, rfl⟩

/-- New processes take what is ahead of a job, each of them one id. -/
theorem to_front {role : Role} {call : Call} {waiting : Redis → List JobId}
    (taking : Taking deployment now role call waiting) {jobId : JobId}
    {front back : List JobId}
    (placed : waiting before.store.redis = front ++ jobId :: back)
    (room : before.HasRoom) :
    ∃ after, Onward deployment now before after ∧
      after.store.db = before.store.db ∧
      (waiting after.store.redis).getLast? = some jobId := by
  induction back using List.reverseRecOn generalizing before with
  | nil => exact ⟨before, .refl, rfl, by simp [placed]⟩
  | append_singleton back last ih =>
      obtain ⟨pid, free⟩ := room
      obtain ⟨_, _, first⟩ := taking.first
      obtain ⟨next, runs, store⟩ := start_and_call (free pid le_rfl) first
        { now := now }
      obtain ⟨left, db, breaker, bucket⟩ := taking.takes
        (placed.trans (by simp : _ = (front ++ jobId :: back) ++ [last]))
      rw [← store] at left db breaker bucket
      have onward : Onward deployment now before next := by
        refine ⟨⟨_, runs, ?_⟩, congrArg Postgres.webhooks db, breaker, bucket⟩
        simpa [Action.Onward] using taking.starts pid
      obtain ⟨after, rest, same, last⟩ := ih left (onward.room ⟨pid, free⟩)
      exact ⟨after, onward.trans rest, same.trans db, last⟩

/-- A new process acts alone from its start on. -/
theorem of_leads {pid : Pid} {role : Role} {choice : Choice}
    {post : World → Prop} (free : before.processes pid = none)
    (starts : (Action.start pid role).Onward now) (time : choice.now = now)
    (leads : Async.Leads deployment pid choice (role.main deployment)
      (fun _ => post) (before.store, [])) :
    ∃ more after fresh, run (step deployment) before more = some after ∧
      (∀ action ∈ more, action.Onward now) ∧
      after.history = fresh ++ before.history ∧ post (after.store, fresh) := by
  have started : step deployment before (.start pid role) =
      some (before.setProcess pid (.spawn deployment role)) := by
    simp only [step, free]
  have acts : Undisturbed.Acts deployment pid before.history
      (before.setProcess pid (.spawn deployment role))
      (role.main deployment) (before.store, []) :=
    ⟨⟨_, _, before.setProcess_self pid _, rfl⟩, rfl, rfl⟩
  obtain ⟨n, after, outcome, left, runs, shown, ends⟩ :=
    leads.run (fun acts => acts.call choice) acts
  refine ⟨_ :: _, after, left.2, Option.bind_eq_some_iff.mpr
    ⟨_, started, runs⟩, ?_, shown.history, ?_⟩
  · intro action member
    rcases List.mem_cons.mp member with rfl | called
    · exact starts
    · rw [List.eq_of_mem_replicate called]
      exact time
  · rw [shown.store]
    exact ends

/-- A replay of one id puts it back on `ready`. -/
theorem replay_leads {pid : Pid} {choice : Choice} {store : Store}
    {calls : List Event} {jobId : JobId} {row : JobRow}
    (last : store.redis.dlq.getLast? = some jobId)
    (stored : store.db.jobs jobId = some row) :
    Async.Leads deployment pid choice ((Role.replay 1).main deployment)
      (fun _ after => jobId ∈ after.1.redis.ready ∧
        after.1.db.jobs jobId = some (row.reset choice.now) ∧
        after.1.db.webhooks = store.db.webhooks ∧
        after.1.redis.breaker = store.redis.breaker ∧
        after.1.redis.bucket = store.redis.bucket) (store, calls) := by
  unfold Role.main
  rw [Async.Leads, Program.leads_map]
  have popped : (exec deployment choice .popDlq store).1 = .ok (some jobId) := by
    simp only [exec, Redis.popDlq, last]
  apply Undisturbed.leads_step popped
  have reset : (exec deployment choice (.resetForReplay jobId)
      (exec deployment choice .popDlq store).2).1 =
        .ok (some (row.reset choice.now).toJob) := by
    simp only [exec, Store.withRedis, Postgres.resetForReplay, stored]
  apply Undisturbed.leads_step reset
  apply Undisturbed.leads_step rfl
  simp only [exec, Store.withRedis, Store.withDb, Postgres.resetForReplay,
    stored, Redis.push, Redis.popDlq, last]
  refine ⟨List.mem_cons_self, ?_, rfl, rfl, rfl⟩
  exact (Postgres.setJob_jobs ..).trans (if_pos (store.db.keyed stored).symm)

/-- Replays bring back every dead-lettered job that has a row. -/
theorem of_dead {row : JobRow} (dead : row.id ∈ before.store.redis.dlq)
    (stored : before.store.db.jobs row.id = some row)
    (room : before.HasRoom) :
    ∃ after, Onward deployment now before after ∧
      after.store.db.jobs row.id = some (row.reset now) ∧
      row.id ∈ after.store.redis.ready := by
  obtain ⟨front, back, placed⟩ := List.append_of_mem dead
  obtain ⟨next, onward, db, last⟩ := to_front taking_dlq placed room
  obtain ⟨pid, free⟩ := onward.room room
  have starts : (Action.start pid (.replay 1)).Onward now := trivial
  have leads := @replay_leads deployment pid { now := now } next.store [] _ _
    last (db ▸ stored)
  obtain ⟨more, after, _, runs, smooth, _, ready, reset, webhooks, breaker,
      bucket⟩ := of_leads (free pid le_rfl) starts rfl leads
  exact ⟨after, onward.trans ⟨⟨more, runs, smooth⟩, webhooks, breaker, bucket⟩,
    reset, ready⟩

end Onward

/-! ## When both gates open -/

theorem passes_from (cooldown : Int) (hash : Option Breaker) :
    ∃ since, ∀ now, since ≤ now →
      (Circuit.checkScript now cooldown hash).1 ≠ .opened := by
  refine ⟨(hash.getD {}).openedAt.getD 0 + cooldown, fun now late => ?_⟩
  have elapsed : now - (hash.getD {}).openedAt.getD 0 ≥ cooldown := by omega
  unfold Circuit.checkScript
  dsimp only
  split
  · simp
  · simp
  · simp
  · rw [if_pos elapsed]
    simp

theorem granted_from {rate burst : Int} (fast : 0 < rate) (roomy : 0 < burst)
    (hash : Option Bucket) :
    ∃ since, ∀ now, since ≤ now →
      (RateLimit.takeScript rate burst now 1 hash).1.allowed = true := by
  have capacity : (1 : ℚ) ≤ burst := by exact_mod_cast roomy
  cases hash with
  | none =>
      refine ⟨0, fun now _ => ?_⟩
      simp [RateLimit.takeScript, capacity]
  | some bucket =>
      refine ⟨bucket.ts + 1000 * ⌈1 - bucket.tokens⌉, fun now late => ?_⟩
      have refilled : 1 ≤ RateLimit.refilled rate burst now bucket := by
        have speed : (1 : ℚ) ≤ rate := by exact_mod_cast fast
        have elapsed : 1000 * ⌈1 - bucket.tokens⌉ ≤ max 0 (now - bucket.ts) := by
          omega
        have missing := Int.le_ceil (1 - bucket.tokens)
        have positive : (0 : ℚ) ≤ (max 0 (now - bucket.ts) : Int) :=
          Int.cast_nonneg (le_max_left _ _)
        have reached : (1000 : ℚ) * ⌈1 - bucket.tokens⌉ ≤
            (max 0 (now - bucket.ts) : Int) := by exact_mod_cast elapsed
        have gained : ((max 0 (now - bucket.ts) : Int) / 1000 : ℚ) ≤
            ((max 0 (now - bucket.ts) : Int) / 1000 : ℚ) * rate :=
          le_mul_of_one_le_right (by positivity) speed
        exact le_min capacity (by linarith)
      rcases RateLimit.takeScript_cases rate burst now bucket with
        ⟨_, taken⟩ | ⟨short, _⟩
      · rw [taken]
      · exact absurd refilled (not_le.mpr short)

/-! ## Delivering a job -/

/-- The job is unfinished and waits in `ready` or `delayed` or under a lease, or
it is dead-lettered. -/
inductive State.CanReach (state : State) (row : JobRow) : Prop
  | waiting (unfinished : ¬(row.state = .succeeded ∨ row.state = .dead))
      (budget : row.attempts < row.maxAttempts)
      (somewhere : row.id ∈ state.store.redis.ready ∨
        (state.store.redis.delayed.score? row.id).isSome ∨
        (state.store.redis.leases.score? row.id).isSome) :
      state.CanReach row
  | dead (budget : 0 < row.maxAttempts)
      (dead : row.id ∈ state.store.redis.dlq) : state.CanReach row

/-- The system can go on at the time `now` so that a worker delivers the job
with one of the calls made from here on. -/
def State.CanDeliver (deployment : Deployment) (now : Int) (row : JobRow)
    (webhook : WebhookRow) (state : State) : Prop :=
  ∃ more after fresh pid, run (step deployment) state more = some after ∧
    (∀ action ∈ more, action.Onward now) ∧
    after.history = fresh ++ state.history ∧
      Delivered row webhook pid fresh after.store

theorem State.CanDeliver.of_onward {row : JobRow} {webhook : WebhookRow}
    (onward : Onward deployment now before middle)
    (later : middle.CanDeliver deployment now row webhook) :
    before.CanDeliver deployment now row webhook := by
  obtain ⟨more, runs, smooth⟩ := onward.taken
  obtain ⟨rest, after, fresh, pid, runsOn, smoothOn, grown, delivered⟩ := later
  refine ⟨more ++ rest, after, _, pid, (run_append runs rest).trans runsOn,
    ?_, ?_, delivered.append ((transitions (step deployment) before
      more).filterMap eventOf).reverse⟩
  · intro action member
    rcases List.mem_append.mp member with earlier | later
    · exact smooth action earlier
    · exact smoothOn action later
  · rw [grown, history_of_run runs, List.append_assoc]

theorem State.hasRoom_initial : State.initial.HasRoom :=
  ⟨0, fun _ _ => rfl⟩

/-- Scheduler and replays bring such a job back to `ready`. -/
theorem State.CanReach.brought_back {row : JobRow}
    (waits : before.CanReach row)
    (stored : before.store.db.jobs row.id = some row)
    (room : before.HasRoom) (since : Int) :
    ∃ now, since ≤ now ∧ ∃ next current, Onward deployment now before next ∧
      next.store.db.jobs row.id = some current ∧
      row.id ∈ next.store.redis.ready ∧
      (current = row ∧ ¬(row.state = .succeeded ∨ row.state = .dead) ∧
          row.attempts < row.maxAttempts ∨
        current = row.reset now ∧ 0 < row.maxAttempts) := by
  cases waits with
  | waiting unfinished budget somewhere =>
      rcases somewhere with ready | delayed | leased
      · exact ⟨since, le_rfl, before, row, .refl, stored, ready,
          .inl ⟨rfl, unfinished, budget⟩⟩
      · obtain ⟨score, delayed⟩ := Option.isSome_iff_exists.mp delayed
        obtain ⟨next, onward, db, ready⟩ :=
          Onward.of_delayed delayed (le_max_right since score)
        exact ⟨_, le_max_left _ _, next, row, onward, by rw [db, stored],
          ready, .inl ⟨rfl, unfinished, budget⟩⟩
      · obtain ⟨score, leased⟩ := Option.isSome_iff_exists.mp leased
        obtain ⟨next, onward, db, ready⟩ :=
          Onward.of_leased leased (le_max_right since score)
        exact ⟨_, le_max_left _ _, next, row, onward, by rw [db, stored],
          ready, .inl ⟨rfl, unfinished, budget⟩⟩
  | dead budget dead =>
      obtain ⟨next, onward, reset, ready⟩ := Onward.of_dead dead stored room
      exact ⟨since, le_rfl, next, _, onward, reset, ready,
        .inr ⟨rfl, budget⟩⟩

/-- A job in `ready` can be delivered when nothing keeps its worker back. -/
theorem State.canDeliver_of_ready {row : JobRow} {webhook : WebhookRow}
    (ready : row.id ∈ before.store.redis.ready) (room : before.HasRoom)
    (clear : Clear deployment { now := now } row webhook before.store) :
    before.CanDeliver deployment now row webhook := by
  obtain ⟨front, back, placed⟩ := List.append_of_mem ready
  have taking : Onward.Taking deployment now .worker .brpoplpush Redis.ready :=
    Onward.taking_ready
  obtain ⟨next, onward, db, last⟩ := Onward.to_front taking placed room
  obtain ⟨pid, free⟩ := onward.room room
  have still : Clear deployment { now := now } row webhook next.store :=
    { clear with
      stored := by rw [db]; exact clear.stored
      registered := by rw [db]; exact clear.registered
      passes := by rw [onward.breaker]; exact clear.passes
      granted := by rw [onward.bucket]; exact clear.granted }
  have leads : Async.Leads deployment pid { now := now }
      (Role.worker.main deployment)
      (fun _ after => Delivered row webhook pid after.2 after.1)
      (next.store, []) := Undisturbed.consume_leads last still
  have starts : (Action.start pid .worker).Onward now := trivial
  obtain ⟨more, after, fresh, runs, smooth, grown, delivered⟩ :=
    Onward.of_leads (free pid le_rfl) starts rfl leads
  exact .of_onward onward ⟨more, after, fresh, pid, runs, smooth, grown,
    delivered⟩

/-- From every state of every run, whatever has crashed, failed or been
overruled until then: a job that is in one of the structures, and is dead or
still has an attempt left, can be delivered without any further fault. -/
theorem no_dead_end {actions : List Action}
    (runs : run (step deployment) State.initial actions = some before)
    (fast : 0 < deployment.perSecond) (roomy : 0 < deployment.burst)
    {row : JobRow} {webhook : WebhookRow}
    (stored : before.store.db.jobs row.id = some row)
    (registered : before.store.db.webhooks row.webhookId = some webhook)
    (signed : webhook.secret ≠ "")
    (sendable : deployment.sends webhook.url row.eventType)
    (waits : before.CanReach row) (since : Int) :
    ∃ now, since ≤ now ∧ before.CanDeliver deployment now row webhook := by
  obtain ⟨closed, passes⟩ := passes_from deployment.cooldownMs
    (before.store.redis.breaker row.webhookId)
  obtain ⟨filled, granted⟩ := granted_from fast roomy
    (before.store.redis.bucket row.webhookId)
  have room := State.hasRoom_initial.run runs
  obtain ⟨now, late, next, current, onward, kept, ready, renewed⟩ :=
    @State.CanReach.brought_back deployment _ _ waits stored room
      (max since (max closed filled))
  have passes := passes now (by omega)
  have granted := granted now (by omega)
  rw [← onward.breaker] at passes
  rw [← onward.bucket] at granted
  rw [← onward.webhooks] at registered
  refine ⟨now, by omega, .of_onward onward ?_⟩
  rcases renewed with ⟨rfl, unfinished, budget⟩ | ⟨rfl, budget⟩
  · exact State.canDeliver_of_ready ready (onward.room room)
      ⟨kept, registered, signed, sendable, unfinished, budget, passes,
        granted, fast.ne', rfl, rfl⟩
  · have clear : Clear deployment { now := now } (row.reset now) webhook
        next.store :=
      ⟨kept, registered, signed, sendable, by simp [JobRow.reset], budget,
        passes, granted, fast.ne', rfl, rfl⟩
    have ready : (row.reset now).id ∈ next.store.redis.ready := ready
    obtain ⟨more, after, fresh, pid, runs, smooth, grown, delivered⟩ :=
      State.canDeliver_of_ready ready (onward.room room) clear
    exact ⟨more, after, fresh, pid, runs, smooth, grown, delivered.accepted,
      delivered.succeeded, delivered.acknowledged⟩

/-- Worker 1 has had its request answered with a 500 and crashes before it can
record that. -/
def crashedAfterRequest : List Action :=
  enqueueOne ++ deliverOnce 1 500 1 ++ [.crash 1]

theorem no_dead_end_crashedAfterRequest :
    ∃ before row, run (step {}) State.initial crashedAfterRequest =
        some before ∧
      before.store.db.jobs 2 = some row ∧ row.state = .inFlight ∧
      ∃ now, 60000 ≤ now ∧ before.CanDeliver {} now row exampleWebhook := by
  have evaluated : (run (step {}) State.initial crashedAfterRequest).map
      (fun state => (state.store.db.jobs 2, state.store.db.webhooks 1,
        (state.store.redis.leases.score? 2).isSome)) =
      some (some { (exampleEvent.toJobInput.newRow 5 2 0 "{}") with
        state := .inFlight }, some exampleWebhook, true) := by
    decide +kernel
  obtain ⟨before, runs, seen⟩ := Option.map_eq_some_iff.mp evaluated
  simp only [Prod.mk.injEq] at seen
  obtain ⟨stored, registered, leased⟩ := seen
  exact ⟨before, _, runs, stored, rfl, no_dead_end runs (by decide) (by decide)
    stored registered (by decide) (by decide +kernel)
    (.waiting (by decide) (by decide) (.inr (.inr leased))) 60000⟩

end WebhookDelivery
