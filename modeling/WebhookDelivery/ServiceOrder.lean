import WebhookDelivery.Library.Line
import WebhookDelivery.TraceInvariant
import WebhookDelivery.Promotion
import WebhookDelivery.DeadLetters

/-!
# First come, first served

`ready` and `dlq` are lists written at the left end and read at the right one,
by many processes and by two scripts that push in batches.  Seen over whole
runs they are waiting lines: workers are handed the jobs, and replays draw
them, in the order in which they were put there.
-/

namespace WebhookDelivery

open Concurrency

/-- The call that takes effect in a step. -/
def eventOf (transition : Transition State Action) : Option Event :=
  if transition.after.history.length = transition.before.history.length then
    none
  else transition.after.history.head?

namespace Event

/-- A job that a process puts on `ready`. -/
def pushed? : Event → Option JobId
  | ⟨_, .push jobId, _⟩ => some jobId
  | _ => none

/-- A job that a worker dead-letters. -/
def buried? : Event → Option JobId
  | ⟨_, .deadLetter jobId, _⟩ => some jobId
  | _ => none

end Event

/-- The jobs a step puts on `ready`: one by a process, or a batch by a
script. -/
def readied (transition : Transition State Action) : List JobId :=
  match transition.action with
  | .promote nowMs batchSize =>
      transition.before.store.redis.delayed.rangeByScore nowMs batchSize
  | .reap nowMs batchSize =>
      transition.before.store.redis.leases.rangeByScore nowMs batchSize
  | _ => ((eventOf transition).bind Event.pushed?).toList

/-- The job a step hands to a worker. -/
def handedOut (transition : Transition State Action) : List JobId :=
  ((eventOf transition).bind Event.popped?).toList

/-- The job a step dead-letters. -/
def buried (transition : Transition State Action) : List JobId :=
  ((eventOf transition).bind Event.buried?).toList

/-- The job a step hands to a replay. -/
def drawn (transition : Transition State Action) : List JobId :=
  ((eventOf transition).bind Event.drawn?).toList

variable {deployment : Deployment} {before after : State} {action : Action}

theorem eventOf_unchanged (same : after.history = before.history) :
    eventOf ⟨before, action, after⟩ = none := by
  simp [eventOf, same]

theorem eventOf_performed {event : Event}
    (adds : after.history = event :: before.history) :
    eventOf ⟨before, action, after⟩ = some event := by
  simp [eventOf, adds]

/-- A step adds its call to the history, if it has one. -/
theorem history_of_eventOf
    (taken : step deployment before action = some after) :
    after.history =
      (eventOf ⟨before, action, after⟩).toList ++ before.history := by
  rcases history_of_step taken with ⟨same, _⟩ | ⟨same, _⟩ |
    ⟨pid, choice, call, _, _, _, adds⟩
  · rw [eventOf_unchanged same, same]
    rfl
  · rw [eventOf_unchanged same, same]
    rfl
  · rw [eventOf_performed adds, adds]
    rfl

/-- What a run adds to the history. -/
theorem history_of_run {actions : List Action}
    (runs : run (step deployment) before actions = some after) :
    after.history = ((transitions (step deployment) before actions).filterMap
      eventOf).reverse ++ before.history := by
  induction actions generalizing before with
  | nil =>
      cases runs
      rfl
  | cons action actions ih =>
      obtain ⟨next, taken, rest⟩ := Option.bind_eq_some_iff.mp runs
      rw [ih rest, history_of_eventOf taken, transitions_cons taken]
      cases happens : eventOf ⟨before, action, next⟩ with
      | none => simp [happens]
      | some event => simp [happens]

namespace Redis

variable (redis : Redis)

/-- What `BRPOPLPUSH` hands out is the right end of `ready`. -/
theorem ready_brpoplpush :
    redis.ready.reverse =
      redis.brpoplpush.1.toList ++ redis.brpoplpush.2.ready.reverse := by
  rcases List.eq_nil_or_concat redis.ready with empty | ⟨front, last, split⟩
  · simp [brpoplpush, empty]
  · simp [brpoplpush, split]

/-- What `RPOP` draws is the right end of `dlq`. -/
theorem dlq_popDlq :
    redis.dlq.reverse =
      redis.popDlq.1.toList ++ redis.popDlq.2.dlq.reverse := by
  rcases List.eq_nil_or_concat redis.dlq with empty | ⟨front, last, split⟩
  · simp [popDlq, empty]
  · simp [popDlq, split]

theorem dlq_foldl (one : Redis → JobId → Redis)
    (kept : ∀ redis jobId, (one redis jobId).dlq = redis.dlq)
    (jobIds : List JobId) : (jobIds.foldl one redis).dlq = redis.dlq := by
  induction jobIds generalizing redis with
  | nil => rfl
  | cons jobId jobIds ih => exact (ih _).trans (kept redis jobId)

/-- The reaper returns a batch in the order in which the leases ran out. -/
theorem foldl_reapOne_ready (jobIds : List JobId) :
    (jobIds.foldl reapOne redis).ready = jobIds.reverse ++ redis.ready := by
  induction jobIds generalizing redis with
  | nil => rfl
  | cons jobId jobIds ih =>
      rw [List.foldl_cons, ih]
      simp [reapOne]

end Redis

/-- What a call does to `ready`. -/
theorem exec_ready (deployment : Deployment) (choice : Choice) (pid : Pid)
    (call : Call) (store : Store) :
    let event : Event := ⟨pid, call, (exec deployment choice call store).1⟩
    store.redis.ready.reverse ++ event.pushed?.toList =
      event.popped?.toList ++
        (exec deployment choice call store).2.redis.ready.reverse := by
  cases call with
  | push jobId => simp [exec, Event.pushed?, Event.popped?, Store.withRedis,
      Redis.push]
  | brpoplpush =>
      simp only [exec, Event.pushed?, Store.withRedis, Option.toList_none,
        List.append_nil]
      rw [Redis.ready_brpoplpush]
      cases store.redis.brpoplpush.1 <;> rfl
  | popDlq =>
      simp only [exec, Event.pushed?, Event.popped?, Store.withRedis,
        Redis.popDlq, Option.toList_none, List.append_nil, List.nil_append]
      split <;> rfl
  | setSlotNx key =>
      simp only [exec, Event.pushed?, Event.popped?, Store.withRedis,
        Redis.setSlotNx, Option.toList_none, List.append_nil, List.nil_append]
      split <;> rfl
  | checkCircuit webhookId now cooldownMs =>
      simp only [exec, Event.pushed?, Event.popped?, Store.withRedis,
        Redis.checkCircuit, Option.toList_none, List.append_nil,
        List.nil_append]
      split <;> rfl
  | take webhookId rate burst now cost =>
      simp only [exec, Event.pushed?, Event.popped?, Store.withRedis,
        Redis.take, Option.toList_none, List.append_nil, List.nil_append]
      split <;> rfl
  | _ => exact List.append_nil _

/-- What a call does to `dlq`. -/
theorem exec_dlq (deployment : Deployment) (choice : Choice) (pid : Pid)
    (call : Call) (store : Store) :
    let event : Event := ⟨pid, call, (exec deployment choice call store).1⟩
    store.redis.dlq.reverse ++ event.buried?.toList =
      event.drawn?.toList ++
        (exec deployment choice call store).2.redis.dlq.reverse := by
  cases call with
  | deadLetter jobId => simp [exec, Event.buried?, Event.drawn?,
      Store.withRedis, Redis.dlqScript]
  | popDlq =>
      simp only [exec, Event.buried?, Store.withRedis, Option.toList_none,
        List.append_nil]
      rw [Redis.dlq_popDlq]
      cases store.redis.popDlq.1 <;> rfl
  | brpoplpush =>
      simp only [exec, Event.buried?, Event.drawn?, Store.withRedis,
        Redis.brpoplpush, Option.toList_none, List.append_nil,
        List.nil_append]
      split <;> rfl
  | setSlotNx key =>
      simp only [exec, Event.buried?, Event.drawn?, Store.withRedis,
        Redis.setSlotNx, Option.toList_none, List.append_nil, List.nil_append]
      split <;> rfl
  | checkCircuit webhookId now cooldownMs =>
      simp only [exec, Event.buried?, Event.drawn?, Store.withRedis,
        Redis.checkCircuit, Option.toList_none, List.append_nil,
        List.nil_append]
      split <;> rfl
  | take webhookId rate burst now cost =>
      simp only [exec, Event.buried?, Event.drawn?, Store.withRedis,
        Redis.take, Option.toList_none, List.append_nil, List.nil_append]
      split <;> rfl
  | _ => exact List.append_nil _

/-- The line for the workers. -/
def readyLine (deployment : Deployment) : Line (step deployment) JobId where
  waiting state := state.store.redis.ready.reverse
  served := handedOut
  joined := readied
  balanced {before action after} taken := by
    cases steps_of_step taken with
    | @performed _ pid choice process call next rescue resumed _ _ _ resumes =>
        have happens : eventOf ⟨before, action, before.perform deployment pid
            choice call resumed⟩ =
              some ⟨pid, call, (exec deployment choice call
                before.store).1⟩ := eventOf_performed rfl
        have adds : readied ⟨before, action, before.perform deployment pid
            choice call resumed⟩ = (Event.pushed? ⟨pid, call,
              (exec deployment choice call before.store).1⟩).toList := by
          cases resumes <;> simp only [readied, happens, Option.bind_some]
        rw [adds, handedOut, happens]
        exact exec_ready deployment choice pid call before.store
    | promoted =>
        simp [readied, handedOut, eventOf, Store.withRedis,
          Redis.promoteScript, Redis.foldl_promoteOne]
    | reaped =>
        simp [readied, handedOut, eventOf, State.reap, Store.withRedis,
          Redis.reapScript, Redis.foldl_reapOne_ready]
    | start | failed | crashed | shutdown | ticked | registered | deleted =>
        simp [readied, handedOut, eventOf, State.setProcess, Store.withRedis,
          Store.withDb]

/-- The line for the replays. -/
def dlqLine (deployment : Deployment) : Line (step deployment) JobId where
  waiting state := state.store.redis.dlq.reverse
  served := drawn
  joined := buried
  balanced {before action after} taken := by
    cases steps_of_step taken with
    | @performed _ pid choice process call next rescue resumed _ _ _ resumes =>
        have happens : eventOf ⟨before, action, before.perform deployment pid
            choice call resumed⟩ =
              some ⟨pid, call, (exec deployment choice call
                before.store).1⟩ := eventOf_performed rfl
        rw [drawn, buried, happens]
        exact exec_dlq deployment choice pid call before.store
    | promoted =>
        simp [drawn, buried, eventOf, Store.withRedis, Redis.promoteScript,
          Redis.dlq_foldl _ Redis.promoteOne fun _ _ => rfl]
    | reaped =>
        simp [drawn, buried, eventOf, State.reap, Store.withRedis,
          Redis.reapScript, Redis.dlq_foldl _ Redis.reapOne fun _ _ => rfl]
    | start | failed | crashed | shutdown | ticked | registered | deleted =>
        simp [drawn, buried, eventOf, State.setProcess, Store.withRedis,
          Store.withDb]

/-- What a run does to a queue: everything that is put there leaves it in the
same order, and a job with others before it leaves right after these. -/
structure InTurn (waiting joined left remaining : List JobId) : Prop where
  order : waiting ++ joined = left ++ remaining
  turn : ∀ {ahead jobId}, waiting[ahead]? = some jobId →
    left[ahead]? = some jobId ∨ left.length ≤ ahead ∧
      remaining[ahead - left.length]? = some jobId

theorem InTurn.of_line (line : Line (step deployment) JobId)
    {actions : List Action}
    (runs : run (step deployment) before actions = some after) :
    InTurn (line.waiting before)
      (line.joinedIn (transitions (step deployment) before actions))
      (line.servedBy (transitions (step deployment) before actions))
      (line.waiting after) where
  order := line.balance runs
  turn := line.moves_up runs

/-- In every run from every state, whatever fails and however many API
processes, workers and schedulers push, promote, reap and replay: workers are
handed the jobs in the order in which these were put on `ready`, and replays
draw the jobs in the order in which these were dead-lettered. -/
theorem served_in_turn {actions : List Action}
    (runs : run (step deployment) before actions = some after) :
    let steps := transitions (step deployment) before actions
    InTurn before.store.redis.ready.reverse (steps.flatMap readied)
        (steps.flatMap handedOut) after.store.redis.ready.reverse ∧
      InTurn before.store.redis.dlq.reverse (steps.flatMap buried)
        (steps.flatMap drawn) after.store.redis.dlq.reverse :=
  ⟨.of_line (readyLine deployment) runs, .of_line (dlqLine deployment) runs⟩

/-- A job is handed out, dead-lettered, drawn by a replay and made ready
again. -/
def replayedInTurn : List Action :=
  deadLetteredAndReplayed ++ calls 2 1

theorem served_in_turn_replayedInTurn :
    ∃ after, run (step {}) State.initial replayedInTurn = some after ∧
      let steps := transitions (step {}) State.initial replayedInTurn
      (steps.flatMap readied = [2, 2] ∧ steps.flatMap drawn = [2]) ∧
        InTurn [] (steps.flatMap readied) (steps.flatMap handedOut)
            after.store.redis.ready.reverse ∧
          InTurn [] (steps.flatMap buried) (steps.flatMap drawn)
            after.store.redis.dlq.reverse := by
  have ends : (run (step {}) State.initial replayedInTurn).isSome := by
    decide +kernel
  obtain ⟨after, runs⟩ := Option.isSome_iff_exists.mp ends
  exact ⟨after, runs, by decide +kernel, served_in_turn runs⟩

end WebhookDelivery
