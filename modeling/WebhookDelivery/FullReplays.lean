import WebhookDelivery.CutReplays
import WebhookDelivery.Promotion

/-!
# Replays that run to their end

A replay that nothing disturbs draws the oldest ids off the dead-letter queue,
one for each iteration of its loop, and brings back those that still have a
row.  Nothing else changes.
-/

namespace WebhookDelivery

open Concurrency

/-- Nobody else does anything, and no call fails; each reads its own clock. -/
def unhindered (choices : Nat → Choice) :
    Surroundings Store Choice AppError where
  others _ store := store
  turn n := .answered (choices n)

/-- The ids a replay draws: the oldest ones, oldest first. -/
def Store.drawn (store : Store) (limit : Nat) : List JobId :=
  store.redis.dlq.reverse.take limit

/-- Those of them that have a row. -/
def Store.replayable (store : Store) (limit : Nat) : List JobId :=
  (store.drawn limit).filter fun jobId => (store.db.jobs jobId).isSome

/-- The calls before the last one that reset the row of a job. -/
def BeforeReset (jobId : JobId) (calls earlier : List Event) : Prop :=
  ∃ later reset, calls = later ++ reset :: earlier ∧
    reset.call = .resetForReplay jobId ∧
    ∀ event ∈ later, event.call ≠ .resetForReplay jobId

/-- What a replay makes of the stores.  A row is reset at the clock of the last
call that reset it. -/
structure Replayed (choices : Nat → Choice) (limit : Nat) (store : Store)
    (execution : Execution Event AppError (List JobId) Store) : Prop where
  redis : execution.world.redis = { store.redis with
    dlq := store.redis.dlq.take (store.redis.dlq.length - limit)
    ready := (store.replayable limit).reverse ++ store.redis.ready }
  others : ∀ jobId, jobId ∉ store.replayable limit →
    execution.world.db.jobs jobId = store.db.jobs jobId
  reset : ∀ jobId ∈ store.replayable limit, ∃ row earlier,
    store.db.jobs jobId = some row ∧
      BeforeReset jobId execution.calls earlier ∧
      execution.world.db.jobs jobId =
        some (row.reset (choices earlier.length).now)
  attempts : execution.world.db.deliveryAttempts = store.db.deliveryAttempts
  webhooks : execution.world.db.webhooks = store.db.webhooks

variable {choices : Nat → Choice} {deployment : Deployment} {pid : Pid}
  {store : Store} {jobId : JobId} {rest : List JobId} {limit : Nat}
  {replayed : List JobId} {calls : List Event}
  {execution : Execution Event AppError (List JobId) Store}

theorem dlq_of_queue (queue : store.redis.dlq.reverse = jobId :: rest) :
    store.redis.dlq = rest.reverse ++ [jobId] := by
  rw [← List.reverse_reverse store.redis.dlq, queue, List.reverse_cons]

theorem left_succ (queue : store.redis.dlq.reverse = jobId :: rest) :
    store.redis.dlq.take (store.redis.dlq.length - (limit + 1)) =
      rest.reverse.take (rest.reverse.length - limit) := by
  rw [dlq_of_queue queue, List.length_append, List.length_singleton,
    Nat.add_sub_add_right,
    List.take_append_of_le_length (Nat.sub_le _ _)]

theorem replayable_succ (queue : store.redis.dlq.reverse = jobId :: rest) :
    store.replayable (limit + 1) =
      (jobId :: rest.take limit).filter
        fun jobId => (store.db.jobs jobId).isSome := by
  rw [Store.replayable, Store.drawn, queue, List.take_succ_cons]

/-- Ids that are not drawn are not replayed, and nothing is left to draw. -/
theorem replayed_none (limit : Nat) (none : store.drawn limit = [])
    (same : execution.world = store) :
    Replayed choices limit store execution := by
  subst same
  have nothing : execution.world.replayable limit = [] := by
    rw [Store.replayable, none, List.filter_nil]
  have whole : execution.world.redis.dlq.take
      (execution.world.redis.dlq.length - limit) =
        execution.world.redis.dlq := by
    rw [Store.drawn, List.take_eq_nil_iff, List.reverse_eq_nil_iff] at none
    rcases none with rfl | drained
    · rw [Nat.sub_zero, List.take_length]
    · rw [drained, List.take_nil]
  refine ⟨?_, fun _ _ => rfl, ?_, rfl, rfl⟩
  · rw [nothing, whole]
    rfl
  · intro jobId member
    rw [nothing] at member
    cases member

/-- The calls reset no rows but those of certain jobs. -/
def ResetsOnly (jobIds : List JobId) (calls : List Event) : Prop :=
  ∀ event ∈ calls, ∀ jobId, event.call = .resetForReplay jobId →
    jobId ∈ jobIds

/-- The end of a loop that started from `store` with `replayed` in hand, after
`calls`. -/
structure Ends (choices : Nat → Choice) (limit : Nat) (store : Store)
    (replayed : List JobId) (calls : List Event)
    (execution : Execution Event AppError (List JobId) Store) : Prop where
  ended : execution.ended =
    some (.ok (replayed ++ store.replayable limit))
  called : ∃ more, execution.calls = more ++ calls ∧
    ResetsOnly (store.drawn limit) more
  replayed : Replayed choices limit store execution

theorem ends_of_drawn_nil (replayed : List JobId) {more : List Event}
    (resets : ResetsOnly [] more) (none : store.drawn limit = []) :
    Ends choices limit store replayed calls
      ⟨more ++ calls, some (.ok replayed), store⟩ where
  ended := by rw [Store.replayable, none, List.filter_nil, List.append_nil]
  called := ⟨more, rfl, none ▸ resets⟩
  replayed := replayed_none limit none rfl

/-- An iteration resets the row of the id that it has drawn. -/
theorem called_succ (queue : store.redis.dlq.reverse = jobId :: rest)
    {own : List Event} (ownResets : ResetsOnly [jobId] own)
    (called : ∃ more, execution.calls = more ++ (own ++ calls) ∧
      ResetsOnly (rest.take limit) more) :
    ∃ more, execution.calls = more ++ calls ∧
      ResetsOnly (store.drawn (limit + 1)) more := by
  obtain ⟨more, same, resets⟩ := called
  refine ⟨more ++ own, by rw [same, List.append_assoc], ?_⟩
  intro event member id reset
  rw [Store.drawn, queue, List.take_succ_cons, List.mem_cons]
  rcases List.mem_append.mp member with after | within
  · exact .inr (resets event after id reset)
  · exact .inl (List.mem_singleton.mp (ownResets event within id reset))

/-- An id without a row is drawn, and dropped. -/
theorem Ends.discard (queue : store.redis.dlq.reverse = jobId :: rest)
    (absent : store.db.jobs jobId = none) {own : List Event}
    (ownResets : ResetsOnly [jobId] own)
    (ends : Ends choices limit
      (store.withRedis { store.redis with dlq := rest.reverse }) replayed
        (own ++ calls) execution) :
    Ends choices (limit + 1) store replayed calls execution := by
  obtain ⟨ended, called, after⟩ := ends
  rw [Store.drawn, Store.withRedis, List.reverse_reverse] at called
  have same : store.replayable (limit + 1) =
      (store.withRedis { store.redis with dlq := rest.reverse }).replayable
        limit := by
    rw [replayable_succ queue, Store.replayable, Store.drawn]
    simp [Store.withRedis, absent]
  refine ⟨by rw [ended, same], called_succ queue ownResets called,
    ?_, ?_, ?_, after.attempts, after.webhooks⟩
  · rw [after.redis, same, left_succ queue]
    rfl
  · rw [same]
    exact after.others
  · rw [same]
    exact after.reset

/-- An id with a row is drawn, reset and pushed. -/
theorem Ends.replay {row : JobRow} {after : Store}
    {draw reset push : Event} (queue : store.redis.dlq.reverse = jobId :: rest)
    (found : store.db.jobs jobId = some row)
    (redis : after.redis = { store.redis with
      dlq := rest.reverse, ready := jobId :: store.redis.ready })
    (db : after.db =
      store.db.setJob (row.reset (choices (draw :: calls).length).now))
    (resets : reset.call = .resetForReplay jobId)
    (others : ResetsOnly [] [push, draw])
    (ends : Ends choices limit after (replayed ++ [jobId])
      ([push, reset, draw] ++ calls) execution) :
    Ends choices (limit + 1) store replayed calls execution := by
  obtain ⟨ended, called, left⟩ := ends
  rw [Store.drawn, redis, List.reverse_reverse] at called
  have own : row.id = jobId := store.db.keyed found
  change (row.reset (choices (draw :: calls).length).now).id = jobId at own
  have jobs : ∀ id, after.db.jobs id =
      if id = jobId then some (row.reset (choices (draw :: calls).length).now)
      else store.db.jobs id := by
    intro id
    rw [db, Postgres.setJob_jobs, own]
  have same : store.replayable (limit + 1) =
      jobId :: after.replayable limit := by
    rw [replayable_succ queue, List.filter_cons_of_pos (by simp [found]),
      Store.replayable, Store.drawn, redis, List.reverse_reverse]
    refine congrArg (jobId :: ·) (List.filter_congr fun id _ => ?_)
    rw [jobs]
    split
    next equal =>
      rw [equal, found]
      rfl
    · rfl
  refine ⟨?_, called_succ queue ?_ called, ?_, ?_, ?_, ?_, ?_⟩
  · rw [ended, same, List.append_assoc, List.singleton_append]
  · intro event member id again
    rcases List.mem_cons.mp member with rfl | member
    · cases others event (List.mem_cons_self ..) id again
    rcases List.mem_cons.mp member with rfl | member
    · rw [resets, Call.resetForReplay.injEq] at again
      exact List.mem_singleton.mpr again.symm
    · cases others event (List.mem_cons_of_mem _ member) id again
  · rw [left.redis, same, left_succ queue, redis]
    simp
  · intro id unseen
    rw [same, List.mem_cons, not_or] at unseen
    rw [left.others id unseen.2, jobs, if_neg unseen.1]
  · intro id member
    rw [same, List.mem_cons] at member
    by_cases again : id ∈ after.replayable limit
    · -- the id is drawn once more, and its row is reset once more
      obtain ⟨old, earlier, before, last, now⟩ := left.reset id again
      rw [jobs] at before
      split at before
      next equal =>
        subst equal
        cases before
        exact ⟨row, earlier, found, last, now⟩
      · exact ⟨old, earlier, before, last, now⟩
    · have equal := member.resolve_right again
      subst equal
      refine ⟨row, draw :: calls, found, ?_, ?_⟩
      · obtain ⟨more, made, onlyDrawn⟩ := called
        refine ⟨more ++ [push], reset, by rw [made]; simp, resets, ?_⟩
        intro event member once
        rcases List.mem_append.mp member with late | pushed
        · -- its row is still there, so a later draw would replay it again
          apply again
          rw [Store.replayable, Store.drawn, redis, List.reverse_reverse,
            List.mem_filter, jobs, if_pos rfl]
          exact ⟨onlyDrawn event late id once, rfl⟩
        · rw [List.mem_singleton.mp pushed] at once
          cases others push (List.mem_cons_self ..) id once
      · rw [left.others id again, jobs, if_pos rfl]
  · rw [left.attempts, db]
    rfl
  · rw [left.webhooks, db]
    rfl

theorem replayLoop_ends (limit : Nat) (store : Store)
    (replayed : List JobId) (calls : List Event) :
    Ends choices limit store replayed calls
      ((JobService.replayLoop limit replayed).execute (exec deployment)
        (Event.mk pid) (unhindered choices) calls.length store calls) := by
  induction limit generalizing store replayed calls with
  | zero =>
      exact @ends_of_drawn_nil _ _ _ calls replayed [] (by simp [ResetsOnly])
        List.take_zero
  | succ limit ih =>
      show Ends choices (limit + 1) store replayed calls
        (((Program.perform Call.popDlq).bind _).execute (exec deployment)
          (Event.mk pid) (unhindered choices) calls.length store calls)
      rw [Program.execute_bind]
      cases queue : store.redis.dlq.reverse with
      | nil =>
          have drained := List.reverse_eq_nil_iff.mp queue
          simp only [unhindered, exec_popDlq_none drained]
          refine @ends_of_drawn_nil _ _ _ calls replayed [_] ?_ ?_
          · simp [ResetsOnly]
          · rw [Store.drawn, queue, List.take_nil]
      | cons jobId rest =>
          simp only [unhindered, exec_popDlq_some queue]
          show Ends choices (limit + 1) store replayed calls
            (((Program.perform (Call.resetForReplay jobId)).bind _).execute
              (exec deployment) (Event.mk pid) (unhindered choices)
                (calls.length + 1) _ _)
          rw [Program.execute_bind]
          rcases store.db.resetForReplay_cases (choices (calls.length + 1)).now
            jobId with ⟨absent, missed⟩ | ⟨row, found, written⟩
          · simp only [unhindered, exec, Store.withRedis, missed]
            refine @Ends.discard _ _ _ _ _ _ calls _ queue absent [_, _] ?_
              (ih _ _ _)
            simp [ResetsOnly]
          · simp only [unhindered, exec, Store.withRedis, written]
            show Ends choices (limit + 1) store replayed calls
              (((Program.perform (Call.push jobId)).bind _).execute
                (exec deployment) (Event.mk pid) (unhindered choices) _ _ _)
            rw [Program.execute_bind]
            refine .replay queue found rfl rfl rfl ?_ (ih _ _ _)
            simp [ResetsOnly]

/-- A replay that nothing disturbs takes the oldest ids off the dead-letter
queue, as many as its limit allows, returns those that have a row, resets
their rows and makes them ready behind what is ready, in this order, and
leaves everything else as it is. -/
theorem replay_does_its_job (deployment : Deployment) (pid : Pid)
    (choices : Nat → Choice) (limit : Nat) (store : Store) :
    let execution := (JobService.replay limit).run deployment pid
      (unhindered choices) store
    execution.ended = some (.ok (store.replayable limit)) ∧
      Replayed choices limit store execution ∧
      ∀ times, times.length = execution.world.redis.ready.length →
        execution.world.redis.reserves times =
          (store.redis.ready.reverse ++ store.replayable limit).map some := by
  intro execution
  obtain ⟨ended, -, replayed⟩ : Ends choices limit store [] [] execution :=
    replayLoop_ends limit store [] []
  refine ⟨ended, replayed, ?_⟩
  intro times all
  rw [Redis.reserves_all times all, replayed.redis]
  simp

end WebhookDelivery
