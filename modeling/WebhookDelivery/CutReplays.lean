import WebhookDelivery.Solo

/-!
# Replays that are cut short

`replay` draws an id from the dead-letter queue before it resets the row.  A
replay that ends in between leaves a dead job that no queue structure holds;
everywhere else it can end without harm.
-/

namespace WebhookDelivery

open Concurrency

/-- What a replay must leave behind: of the jobs that were in the dead-letter
queue, those still dead are in it and all others are queued, and no id of a
dead job has been pushed on `ready`. -/
structure ReplaySafe (before after : Store) : Prop where
  kept : ∀ jobId ∈ before.redis.dlq, ∀ row,
    after.db.jobs jobId = some row →
      jobId ∈ after.redis.dlq ∧ row.state = .dead ∨ row.state = .queued
  pushed : ∀ jobId ∈ after.redis.ready, ∀ row,
    after.db.jobs jobId = some row → row.state = .dead →
      jobId ∈ before.redis.ready

/-! ## Where a replay ends -/

/-- The calls of a replay.  A draw and the reset after it say whether the only
trace of a dead job is in the replay's hands between them. -/
inductive ReplayCall
  | draw (soleTrace : Bool)
  | reset (soleTrace : Bool)
  | push
  deriving DecidableEq

/-- The calls of a replay of at most `limit` ids on a dead-letter queue, oldest
id first; the ids in `seen` have been drawn before. -/
def replayPlan (stored : JobId → Bool) : Nat → List JobId → List JobId →
    List ReplayCall
  | 0, _, _ => []
  | _ + 1, _, [] => []
  | limit + 1, seen, jobId :: rest =>
      let soleTrace :=
        stored jobId && decide (jobId ∉ seen) && decide (jobId ∉ rest)
      let calls := replayPlan stored limit (jobId :: seen) rest
      .draw soleTrace :: .reset soleTrace ::
        if stored jobId then .push :: calls else calls

/-- The first call that is not answered draws the only trace of a dead job, or
is the reset after that draw and has no effect. -/
def strands (turn : Nat → Turn Choice AppError) : Nat → List ReplayCall → Bool
  | _, [] => false
  | n, call :: calls =>
      match turn n, call with
      | .answered _, _ => strands turn (n + 1) calls
      | .lost _ _, .draw soleTrace => soleTrace
      | .refused _, .reset soleTrace => soleTrace
      | .stopped, .reset soleTrace => soleTrace
      | _, _ => false

/-! ## The loop -/

/-- The dead-letter queue, `ready` and the rows. -/
structure SameQueues (store other : Store) : Prop where
  dlq : other.redis.dlq = store.redis.dlq
  ready : other.redis.ready = store.redis.ready
  jobs : other.db.jobs = store.db.jobs

/-- A replay that has drawn the ids in `seen` and dealt with them. -/
structure Midway (initial : Store) (stored : JobId → Bool)
    (seen : List JobId) (store : Store) : Prop where
  waiting : ∀ jobId ∈ initial.redis.dlq, ∀ row,
    store.db.jobs jobId = some row → jobId ∉ seen →
      jobId ∈ store.redis.dlq ∧ row.state = .dead
  reset : ∀ jobId ∈ seen, ∀ row, store.db.jobs jobId = some row →
    row.state = .queued
  dlq : ∀ jobId ∈ store.redis.dlq, jobId ∈ initial.redis.dlq
  pushed : ∀ jobId ∈ store.redis.ready, ∀ row,
    store.db.jobs jobId = some row → row.state = .dead →
      jobId ∈ initial.redis.ready
  stored : ∀ jobId, (store.db.jobs jobId).isSome = stored jobId

variable {initial store after : Store} {stored : JobId → Bool}
  {seen : List JobId} {jobId : JobId}

namespace Midway

theorem congr (midway : Midway initial stored seen store)
    (same : SameQueues store after) : Midway initial stored seen after where
  waiting := by
    rw [same.jobs, same.dlq]
    exact midway.waiting
  reset := by
    rw [same.jobs]
    exact midway.reset
  dlq := by
    rw [same.dlq]
    exact midway.dlq
  pushed := by
    rw [same.jobs, same.ready]
    exact midway.pushed
  stored := by
    rw [same.jobs]
    exact midway.stored

theorem safe (midway : Midway initial stored seen store) :
    ReplaySafe initial store where
  kept jobId member row found := by
    by_cases drawn : jobId ∈ seen
    · exact .inr (midway.reset jobId drawn row found)
    · exact .inl (midway.waiting jobId member row found drawn)
  pushed := midway.pushed

/-- A replay that ends with an id in its hands is safe unless that was the only
trace of a dead job. -/
theorem drawn_safe_iff {rest : List JobId}
    (midway : Midway initial stored seen store)
    (queue : store.redis.dlq.reverse = jobId :: rest)
    (drawn : after.redis.dlq.reverse = rest)
    (ready : after.redis.ready = store.redis.ready)
    (jobs : after.db.jobs = store.db.jobs) :
    ReplaySafe initial after ↔
      (stored jobId && decide (jobId ∉ seen) && decide (jobId ∉ rest)) =
        false := by
  have members : ∀ id, id ∈ store.redis.dlq ↔ id = jobId ∨ id ∈ rest := by
    intro id
    rw [← List.mem_reverse, queue, List.mem_cons]
  have left : ∀ id, id ∈ after.redis.dlq ↔ id ∈ rest := by
    intro id
    rw [← List.mem_reverse, drawn]
  constructor
  · intro safe
    by_contra soleTrace
    simp only [Bool.not_eq_false, Bool.and_eq_true, decide_eq_true_eq]
      at soleTrace
    obtain ⟨⟨exists_, unseen⟩, gone⟩ := soleTrace
    rw [← midway.stored] at exists_
    obtain ⟨row, found⟩ := Option.isSome_iff_exists.mp exists_
    have member := midway.dlq jobId ((members jobId).mpr (.inl rfl))
    have dead := (midway.waiting jobId member row found unseen).2
    rcases safe.kept jobId member row (jobs ▸ found) with
      ⟨still, _⟩ | queued
    · exact gone ((left jobId).mp still)
    · rw [dead] at queued
      cases queued
  · intro traced
    refine ⟨fun id member row found => ?_, ?_⟩
    · rw [jobs] at found
      by_cases seenBefore : id ∈ seen
      · exact .inr (midway.reset id seenBefore row found)
      obtain ⟨waits, dead⟩ := midway.waiting id member row found seenBefore
      refine .inl ⟨(left id).mpr ?_, dead⟩
      rcases (members id).mp waits with rfl | other
      · have exists_ := midway.stored id
        rw [found] at exists_
        simpa [← exists_, seenBefore] using traced
      · exact other
    · rw [ready, jobs]
      exact midway.pushed

/-- The row of the id in hand is reset, if there is one. -/
theorem settled {rest : List JobId} (midway : Midway initial stored seen store)
    (queue : store.redis.dlq.reverse = jobId :: rest)
    (drawn : after.redis.dlq.reverse = rest)
    (ready : after.redis.ready = store.redis.ready)
    (others : ∀ id, id ≠ jobId → after.db.jobs id = store.db.jobs id)
    (own : ∀ row, after.db.jobs jobId = some row → row.state = .queued)
    (exists_ : (after.db.jobs jobId).isSome = stored jobId) :
    Midway initial stored (jobId :: seen) after where
  waiting id member row found unseen := by
    rw [List.mem_cons, not_or] at unseen
    rw [others id unseen.1] at found
    obtain ⟨waits, dead⟩ := midway.waiting id member row found unseen.2
    refine ⟨?_, dead⟩
    rw [← List.mem_reverse, queue, List.mem_cons] at waits
    rw [← List.mem_reverse, drawn]
    exact waits.resolve_left unseen.1
  reset id member row found := by
    by_cases same : id = jobId
    · subst same
      exact own row found
    · rw [others id same] at found
      exact midway.reset id ((List.mem_cons.mp member).resolve_left same) row
        found
  dlq id member := by
    apply midway.dlq
    rw [← List.mem_reverse, drawn] at member
    rw [← List.mem_reverse, queue]
    exact List.mem_cons_of_mem _ member
  pushed id member row found dead := by
    by_cases same : id = jobId
    · subst same
      have queued := own row found
      rw [dead] at queued
      cases queued
    · rw [others id same] at found
      exact midway.pushed id (ready ▸ member) row found dead
  stored id := by
    by_cases same : id = jobId
    · subst same
      exact exists_
    · rw [others id same]
      exact midway.stored id

/-- An id whose row has been reset is pushed. -/
theorem push (midway : Midway initial stored seen store)
    (drawn : jobId ∈ seen) :
    Midway initial stored seen
      (store.withRedis (store.redis.push jobId)) where
  waiting := midway.waiting
  reset := midway.reset
  dlq := midway.dlq
  pushed id member row found dead := by
    rcases List.mem_cons.mp member with rfl | earlier
    · have queued := midway.reset id drawn row found
      rw [dead] at queued
      cases queued
    · exact midway.pushed id earlier row found dead
  stored := midway.stored

end Midway

theorem exec_popDlq_some {deployment : Deployment} {choice : Choice}
    {rest : List JobId} (queue : store.redis.dlq.reverse = jobId :: rest) :
    exec deployment choice .popDlq store = (.ok (some jobId),
      store.withRedis { store.redis with dlq := rest.reverse }) := by
  have dlq : store.redis.dlq = rest.reverse ++ [jobId] := by
    rw [← List.reverse_reverse store.redis.dlq, queue, List.reverse_cons]
  simp [exec, Redis.popDlq, dlq]

theorem exec_popDlq_none {deployment : Deployment} {choice : Choice}
    (drained : store.redis.dlq = []) :
    exec deployment choice .popDlq store = (.ok none, store) := by
  simp only [exec, Redis.popDlq, drained]
  rfl

/-- The row is there and is reset, or it is not there. -/
theorem Midway.resetForReplay {rest : List JobId} {deployment : Deployment}
    {choice : Choice} (midway : Midway initial stored seen store)
    (queue : store.redis.dlq.reverse = jobId :: rest)
    (same : SameQueues
      (store.withRedis { store.redis with dlq := rest.reverse }) after) :
    let result := exec deployment choice (.resetForReplay jobId) after
    Midway initial stored (jobId :: seen) result.2 ∧
      result.2.redis.dlq.reverse = rest ∧
        (stored jobId = true ∧ (∃ job, result.1 = .ok (some job)) ∨
          stored jobId = false ∧ result.1 = .ok none) := by
  have drawn : after.redis.dlq.reverse = rest := by
    rw [same.dlq]
    exact List.reverse_reverse rest
  have exists_ : (after.db.jobs jobId).isSome = stored jobId := by
    rw [same.jobs]
    exact midway.stored jobId
  rcases after.db.resetForReplay_cases choice.now jobId with
    ⟨absent, missed⟩ | ⟨row, found, written⟩
  · rw [absent] at exists_
    simp only [exec, missed]
    refine ⟨?_, drawn, .inr ⟨exists_.symm, trivial⟩⟩
    refine midway.settled queue drawn same.ready
      (fun id _ => congrFun same.jobs id) ?_ ?_
    · intro row found
      cases absent.symm.trans found
    · exact (congrArg Option.isSome absent).trans exists_
  · have id : row.id = jobId := after.db.keyed found
    change (row.reset choice.now).id = jobId at id
    rw [found] at exists_
    simp only [exec, written]
    refine ⟨?_, drawn, .inl ⟨exists_.symm, _, rfl⟩⟩
    refine midway.settled queue drawn same.ready ?_ ?_ ?_
    · intro other different
      refine (Function.update_of_ne ?_ ..).trans (congrFun same.jobs other)
      rw [id]
      exact different
    · intro now stored
      change (after.db.setJob (row.reset choice.now)).jobs jobId = _ at stored
      rw [Postgres.setJob_jobs, if_pos id.symm] at stored
      cases stored
      rfl
    · show ((after.db.setJob (row.reset choice.now)).jobs jobId).isSome = _
      rw [Postgres.setJob_jobs, if_pos id.symm]
      exact exists_

variable {deployment : Deployment} {pid : Pid}
  {around : Surroundings Store Choice AppError}

/-- An iteration from its push on. -/
theorem push_safe_iff
    (others : ∀ n store, SameQueues store (around.others n store))
    {rest : Async (List JobId)} {n : Nat} {store : Store}
    {calls : List Event} {plan : List ReplayCall}
    (midway : Midway initial stored seen store) (drawn : jobId ∈ seen)
    (following : ∀ after calls, Midway initial stored seen after →
      after.redis.dlq = store.redis.dlq →
        (ReplaySafe initial (rest.execute (exec deployment) (Event.mk pid)
            around (n + 1) after calls).world ↔
          strands around.turn (n + 1) plan = false)) :
    ReplaySafe initial (((Program.perform (Call.push jobId)).bind
        fun _ => rest).execute (exec deployment) (Event.mk pid) around n store
          calls).world ↔
      strands around.turn n (.push :: plan) = false := by
  have met := midway.congr (others n store)
  rw [Program.execute_bind]
  cases turn : around.turn n with
  | refused failure => exact iff_of_true met.safe (by simp [strands, turn])
  | stopped => exact iff_of_true met.safe (by simp [strands, turn])
  | lost choice failure =>
      exact iff_of_true (met.push drawn).safe (by simp [strands, turn])
  | answered choice =>
      simp only [strands, turn]
      exact following _ _ (met.push drawn) (others n store).dlq

/-- An iteration from its reset on. -/
theorem reset_safe_iff
    (others : ∀ n store, SameQueues store (around.others n store))
    {next : Option Job → Async (List JobId)} {n : Nat} {store inHand : Store}
    {rest : List JobId} {calls : List Event} {plan : List ReplayCall}
    (midway : Midway initial stored seen store)
    (queue : store.redis.dlq.reverse = jobId :: rest)
    (drawn : SameQueues
      (store.withRedis { store.redis with dlq := rest.reverse }) inHand)
    (following : ∀ reply after calls,
      Midway initial stored (jobId :: seen) after →
      after.redis.dlq.reverse = rest →
      (stored jobId = true ∧ (∃ job, reply = some job) ∨
        stored jobId = false ∧ reply = none) →
        (ReplaySafe initial ((next reply).execute (exec deployment)
            (Event.mk pid) around (n + 1) after calls).world ↔
          strands around.turn (n + 1) plan = false)) :
    ReplaySafe initial (((Program.perform (Call.resetForReplay jobId)).bind
        next).execute (exec deployment) (Event.mk pid) around n inHand
          calls).world ↔
      strands around.turn n (.reset (stored jobId && decide (jobId ∉ seen) &&
        decide (jobId ∉ rest)) :: plan) = false := by
  have met : SameQueues
      (store.withRedis { store.redis with dlq := rest.reverse })
      (around.others n inHand) :=
    ⟨(others n inHand).dlq.trans drawn.dlq,
      (others n inHand).ready.trans drawn.ready,
      (others n inHand).jobs.trans drawn.jobs⟩
  have unreset := midway.drawn_safe_iff queue
    ((congrArg List.reverse met.dlq).trans (List.reverse_reverse rest))
    met.ready met.jobs
  rw [Program.execute_bind]
  cases turn : around.turn n with
  | refused failure =>
      simp only [strands, turn]
      exact unreset
  | stopped =>
      simp only [strands, turn]
      exact unreset
  | lost choice failure =>
      have reset := @Midway.resetForReplay _ _ _ _ _ _ _ deployment choice
        midway queue met
      exact iff_of_true reset.1.safe (by simp [strands, turn])
  | answered choice =>
      have reset := @Midway.resetForReplay _ _ _ _ _ _ _ deployment choice
        midway queue met
      simp only [strands, turn]
      rcases result : exec deployment choice (.resetForReplay jobId)
        (around.others n inHand) with ⟨reply, after⟩
      rw [result] at reset
      obtain ⟨settled, left, ⟨exists_, job, rfl⟩ | ⟨absent, rfl⟩⟩ := reset
      · exact following _ _ _ settled left (.inl ⟨exists_, job, rfl⟩)
      · exact following _ _ _ settled left (.inr ⟨absent, rfl⟩)

/-- What the loop leaves behind from one of its iterations on. -/
theorem replayLoop_safe_iff
    (others : ∀ n store, SameQueues store (around.others n store))
    (limit : Nat) {n : Nat} {store : Store} {seen : List JobId}
    (replayed : List JobId) (calls : List Event)
    (midway : Midway initial stored seen store) :
    ReplaySafe initial ((JobService.replayLoop limit replayed).execute
        (exec deployment) (Event.mk pid) around n store calls).world ↔
      strands around.turn n
        (replayPlan stored limit seen store.redis.dlq.reverse) = false := by
  induction limit generalizing n store seen replayed calls with
  | zero => exact iff_of_true midway.safe rfl
  | succ limit ih =>
      have met := midway.congr (others n store)
      have dlq := (others n store).dlq
      show ReplaySafe initial (((Program.perform Call.popDlq).bind _).execute
        (exec deployment) (Event.mk pid) around n store calls).world ↔ _
      rw [Program.execute_bind]
      cases queue : store.redis.dlq.reverse with
      | nil =>
          rw [← dlq] at queue
          have drained := List.reverse_eq_nil_iff.mp queue
          refine iff_of_true ?_ rfl
          cases around.turn n with
          | answered choice =>
              simp only [exec_popDlq_none drained]
              exact met.safe
          | refused failure => exact met.safe
          | lost choice failure =>
              simp only [exec_popDlq_none drained]
              exact met.safe
          | stopped => exact met.safe
      | cons jobId rest =>
          rw [← dlq] at queue
          cases turn : around.turn n with
          | refused failure =>
              exact iff_of_true met.safe (by simp [replayPlan, strands, turn])
          | stopped =>
              exact iff_of_true met.safe (by simp [replayPlan, strands, turn])
          | lost choice failure =>
              simp only [exec_popDlq_some queue, replayPlan, strands, turn]
              exact met.drawn_safe_iff queue (List.reverse_reverse rest) rfl
                rfl
          | answered choice =>
              simp only [exec_popDlq_some queue, replayPlan, strands, turn]
              refine reset_safe_iff others met queue ⟨rfl, rfl, rfl⟩ ?_
              rintro reply after calls settled left
                (⟨exists_, job, rfl⟩ | ⟨absent, rfl⟩)
              · simp only [exists_, if_true]
                apply push_safe_iff others settled List.mem_cons_self
                intro pushed calls midway same
                have following := @ih (n + 1 + 1 + 1) _ _ (replayed ++ [jobId])
                  calls midway
                rw [same, left] at following
                exact following
              · simp only [absent, Bool.false_eq_true, if_false]
                have following := @ih (n + 1 + 1) _ _ replayed calls settled
                rw [left] at following
                exact following

/-- A replay is safe if and only if it does not end between drawing the only
trace of a dead job and resetting its row. -/
theorem replay_safe_iff_not_stranded (deployment : Deployment) (pid : Pid)
    (limit : Nat) (store : Store)
    (around : Surroundings Store Choice AppError)
    (dead : ∀ jobId ∈ store.redis.dlq, ∀ row,
      store.db.jobs jobId = some row → row.state = .dead)
    (others : ∀ n store, SameQueues store (around.others n store)) :
    ReplaySafe store ((JobService.replay limit).run deployment pid around
        store).world ↔
      strands around.turn 0 (replayPlan
        (fun jobId => (store.db.jobs jobId).isSome) limit []
          store.redis.dlq.reverse) = false := by
  refine replayLoop_safe_iff others limit [] [] ⟨?_, ?_, ?_, ?_, ?_⟩
  · exact fun jobId waits row found _ => ⟨waits, dead jobId waits row found⟩
  · exact fun _ member => by cases member
  · exact fun _ => id
  · exact fun _ member _ _ _ => member
  · exact fun _ => rfl

/-- One dead job, in the dead-letter queue. -/
def deadJob : Store where
  redis := { Redis.empty with dlq := [2] }
  db := Postgres.empty.setJob
    { JobInput.newRow 5 2 0 ⟨"acme", 1, "order.paid", "{}", none⟩ "{}" with
      state := .dead, attempts := 5, lastError := some "HTTP 500" }

/-- Nobody else does anything, and one call of the replay throws. -/
def throwsAt (failing : Nat) : Surroundings Store Choice AppError where
  others _ store := store
  turn n :=
    if n = failing then .refused (.other "connection lost") else .answered {}

theorem replay_safe_iff_not_stranded_pushThrows :
    ReplaySafe deadJob ((JobService.replay 10).run {} 0 (throwsAt 2)
        deadJob).world ↔
      strands (throwsAt 2).turn 0 (replayPlan
        (fun jobId => (deadJob.db.jobs jobId).isSome) 10 []
          deadJob.redis.dlq.reverse) = false := by
  refine replay_safe_iff_not_stranded {} 0 10 deadJob (throwsAt 2) ?_
    fun _ _ => ⟨rfl, rfl, rfl⟩
  intro jobId member row found
  cases List.mem_singleton.mp member
  cases found
  rfl

/-- The reset throws: the id has left the dead-letter queue, and the row is
still dead. -/
theorem reset_throws_strands :
    ¬ReplaySafe deadJob ((JobService.replay 10).run {} 0 (throwsAt 1)
      deadJob).world := by
  intro safe
  rcases safe.kept 2 (by decide) _ rfl with ⟨waits, _⟩ | queued
  · revert waits
    decide +kernel
  · revert queued
    decide +kernel

end WebhookDelivery
