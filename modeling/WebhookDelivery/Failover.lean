import WebhookDelivery.Leadership

/-!
# Failover

The lock server forgets nothing that it has granted and makes nothing up: what
it answers follows from the requests it has granted so far and from the time.
So the lock is free as soon as its last holder has released it or has been
silent for its lifetime, and the next scheduler that asks for it leads.
-/

namespace WebhookDelivery

namespace Leadership

open Concurrency

/-! ## What has been granted -/

/-- The lock that a request is to get or to keep. -/
def Request.claimed? : Request → Option Lock
  | .tick (.acquire lock) | .tick (.renew lock) => some lock
  | _ => none

/-- Whether a request is granted when the lock is held under this token. -/
def Request.granted (holder : Option Token) : Request → Bool
  | .tick (.acquire _) => holder.isNone
  | .tick (.renew lock) | .release lock => holder = some lock.token
  | .tick .promoteDue | .tick .reapExpired => true

/-- A request about the lock has been granted. -/
def Event.grants (event : Event) : Bool :=
  event.reply && event.request.lock?.isSome

/-- What the request has left of the lock: a full lifetime, or nothing. -/
def Event.lease? (event : Event) : Option (Expiring Token) :=
  event.request.claimed?.map fun lock =>
    ⟨lock.token, some (event.server.clock + lockTtlMs)⟩

def State.lastGrant? (state : State) : Option Event :=
  state.history.find? Event.grants

/-- The token under which the lock is held, going by what has been granted. -/
def State.holder? (state : State) : Option Token :=
  (state.lastGrant?.bind Event.lease?).bind
    (Expiring.read state.server.clock)

/-! ## One request -/

section Execute

variable {server : LockServer} {request : Request}

theorem execute_clock :
    (request.execute server).2.clock = server.clock := by
  cases request with
  | release lock =>
      simp only [Request.execute, LockServer.release]
      split <;> rfl
  | tick command =>
      cases command with
      | acquire lock =>
          simp only [Request.execute, LockServer.acquire]
          split <;> rfl
      | renew lock =>
          simp only [Request.execute, LockServer.renew]
          split <;> rfl
      | _ => rfl

/-- The reply depends on who holds the lock. -/
theorem execute_reply
    (about : ∀ lock, request.lock? = some lock → lock.key = lockKey) :
    (request.execute server).1 = request.granted (server.get lockKey) := by
  cases request with
  | release lock =>
      rw [← about lock rfl]
      simp only [Request.execute, LockServer.release, Request.granted]
      split <;> simp_all
  | tick command =>
      cases command with
      | acquire lock =>
          rw [← about lock rfl]
          simp only [Request.execute, LockServer.acquire, Request.granted]
          split <;> simp_all
      | renew lock =>
          rw [← about lock rfl]
          simp only [Request.execute, LockServer.renew, Request.granted]
          split <;> simp_all
      | _ => rfl

/-- A request that is granted leaves its lease, and any other one nothing. -/
theorem execute_keys {lock : Lock} (about : request.lock? = some lock)
    (key : lock.key = lockKey) (id : SchedulerId) :
    (request.execute server).2.keys lockKey =
      if (request.execute server).1 then
        Event.lease? ⟨id, request, (request.execute server).1,
          (request.execute server).2⟩
      else server.keys lockKey := by
  have lasting : 0 < lockTtlMs := by decide
  rw [← key]
  cases request with
  | release asked =>
      cases about
      simp only [Request.execute, LockServer.release]
      split
      · simp [Event.lease?, Request.claimed?]
      · rfl
  | tick command =>
      cases command with
      | acquire asked =>
          cases about
          cases held : server.get lock.key with
          | none =>
              simp [Request.execute, LockServer.acquire, held, Event.lease?,
                Request.claimed?]
          | some token =>
              simp [Request.execute, LockServer.acquire_of_held held]
      | renew asked =>
          cases about
          simp only [Request.execute, LockServer.renew]
          split
          · simp [Event.lease?, Request.claimed?, Expiring.pexpire, lasting]
          · rfl
      | _ => cases about

/-- The sweeps leave the lock alone. -/
theorem execute_of_unrelated (unrelated : request.lock? = none) :
    (request.execute server).2 = server := by
  cases request with
  | release lock => cases unrelated
  | tick command => cases command <;> first | rfl | cases unrelated

end Execute

/-! ## Runs -/

/-- A step that executes no request leaves the locks and the history. -/
theorem unchanged_of_step {before after : State} {action : Action}
    (taken : step before action = some after)
    (silent : request? before action = none) :
    after.server.keys = before.server.keys ∧
      before.server.clock ≤ after.server.clock ∧
        after.history = before.history := by
  cases action with
  | execute id =>
      simp only [step] at taken
      split at taken
      next command sent => simp [request?, sent] at silent
      · cases taken
  | executeRelease id =>
      simp only [step] at taken
      split at taken
      next lock sent => simp [request?, sent] at silent
      · cases taken
  | elapse ms =>
      cases taken
      refine ⟨rfl, ?_, rfl⟩
      simp only [LockServer.elapse]
      omega
  | tick id token =>
      simp only [step] at taken
      split at taken
      · split at taken
        · cases taken
          exact ⟨rfl, Int.le_refl _, rfl⟩
        · split at taken
          · cases taken
          · cases taken
            exact ⟨rfl, Int.le_refl _, rfl⟩
      · cases taken
  | reply id | fail id | signal id | replyRelease id | exit id =>
      simp only [step] at taken
      split at taken
      · cases taken
        exact ⟨rfl, Int.le_refl _, rfl⟩
      · cases taken

/-- The server stores what the latest granted request has left. -/
structure Remembered (state : State) : Prop where
  owned : Invariant state
  stored : state.server.keys lockKey = state.lastGrant?.bind Event.lease?
  earlier : ∀ event ∈ state.history, event.server.clock ≤ state.server.clock

namespace Remembered

theorem initial : Remembered State.initial where
  owned := .initial
  stored := rfl
  earlier _ member := by cases member

variable {before after : State} {action : Action} {id : SchedulerId}
  {request : Request}

/-- The lock is held by the latest grant as long as it lasts. -/
theorem get_eq (remembered : Remembered before) :
    before.server.get lockKey = before.holder? := by
  rw [LockServer.get, remembered.stored, State.holder?]

/-- What the server makes of a request. -/
theorem answers (remembered : Remembered before)
    (taken : Leadership.step before action = some after)
    (asked : request? before action = some (id, request)) :
    after.history = ⟨id, request, request.granted before.holder?,
        after.server⟩ :: before.history := by
  obtain ⟨server, history, own, _⟩ := request?_eq_some taken asked
  rw [history, server, execute_reply fun lock about =>
    (remembered.owned.own (own lock about)).1, remembered.get_eq]

theorem step (remembered : Remembered before)
    (taken : Leadership.step before action = some after) :
    Remembered after := by
  have owned := remembered.owned.step taken
  cases asked : request? before action with
  | none =>
      obtain ⟨keys, later, history⟩ := unchanged_of_step taken asked
      refine ⟨owned, ?_, ?_⟩
      · rw [keys, State.lastGrant?, history]
        exact remembered.stored
      · rw [history]
        exact fun event member =>
          Int.le_trans (remembered.earlier event member) later
  | some pair =>
      obtain ⟨id, request⟩ := pair
      obtain ⟨server, history, own, _⟩ := request?_eq_some taken asked
      refine ⟨owned, ?_, ?_⟩
      · rw [State.lastGrant?, history, List.find?_cons, server]
        cases about : request.lock? with
        | none =>
            simp only [Event.grants, about, execute_of_unrelated about,
              Option.isSome_none, Bool.and_false]
            exact remembered.stored
        | some lock =>
            rw [execute_keys about (remembered.owned.own (own lock about)).1 id]
            simp only [Event.grants, about, Option.isSome_some, Bool.and_true]
            cases (request.execute before.server).1 with
            | true => rfl
            | false => exact remembered.stored
      · rw [history, server]
        intro event member
        rcases List.mem_cons.mp member with rfl | earlier
        · exact Int.le_refl _
        · rw [execute_clock]
          exact remembered.earlier event earlier

theorem of_run {actions : List Action} {final : State}
    (runs : run Leadership.step State.initial actions = some final) :
    Remembered final :=
  invariant_of_run runs initial fun _ _ _ remembered taken =>
    remembered.step taken

end Remembered

/-- Scheduler 0 leads, sweeps and dies; scheduler 1 asks in vain, and once more
when five seconds are over. -/
def leaderDies : List Action :=
  [.tick 0 1, .execute 0, .reply 0, .execute 0, .exit 0]

def standbyWaits : List Action :=
  [.elapse 2000, .tick 1 2, .execute 1, .reply 1, .elapse 3000]

/-- A scheduler is given the lock in a step, or keeps it. -/
def claimGranted (state : State) (action : Action) : Bool :=
  match request? state action with
  | some (_, request) =>
      request.claimed?.isSome && request.granted state.holder?
  | none => false

/-- Nobody is given the lock beyond this time. -/
def State.FreeFrom (deadline : Int) (state : State) : Prop :=
  ∀ entry, state.server.keys lockKey = some entry →
    ∃ expiresAt, entry.expiresAt = some expiresAt ∧ expiresAt ≤ deadline

theorem State.FreeFrom.get_eq_none {state : State} {deadline : Int}
    (free : state.FreeFrom deadline) (passed : deadline ≤ state.server.clock) :
    state.server.get lockKey = none := by
  rw [LockServer.get]
  cases found : state.server.keys lockKey with
  | none => rfl
  | some entry =>
      obtain ⟨expiresAt, ends, within⟩ := free entry found
      have ended : ¬state.server.clock < expiresAt := by omega
      simp only [Option.bind_some, Expiring.read, ends, if_neg ended]

namespace Remembered

variable {before after : State} {action : Action} {deadline : Int}

/-- A grant lasts no longer than its lifetime. -/
theorem freeFrom (remembered : Remembered before) :
    before.FreeFrom (before.server.clock + lockTtlMs) := by
  intro entry found
  rw [remembered.stored] at found
  obtain ⟨event, last, lease⟩ := Option.bind_eq_some_iff.mp found
  obtain ⟨lock, _, rfl⟩ := Option.map_eq_some_iff.mp lease
  have earlier := remembered.earlier event (List.mem_of_find?_eq_some last)
  exact ⟨_, rfl, by omega⟩

/-- Without a further grant the lock is not held for longer. -/
theorem freeFrom_step (remembered : Remembered before)
    (free : before.FreeFrom deadline)
    (silent : claimGranted before action = false)
    (taken : Leadership.step before action = some after) :
    after.FreeFrom deadline := by
  cases asked : request? before action with
  | none =>
      obtain ⟨keys, _, _⟩ := unchanged_of_step taken asked
      rw [State.FreeFrom, keys]
      exact free
  | some pair =>
      obtain ⟨id, request⟩ := pair
      obtain ⟨server, _, own, _⟩ := request?_eq_some taken asked
      rw [State.FreeFrom, server]
      simp only [claimGranted, asked] at silent
      cases about : request.lock? with
      | none =>
          rw [execute_of_unrelated about]
          exact free
      | some lock =>
          have owned : ∀ lock, request.lock? = some lock →
              lock.key = lockKey :=
            fun lock about => (remembered.owned.own (own lock about)).1
          rw [execute_keys about (owned lock about) id, execute_reply owned,
            remembered.get_eq]
          split
          next granted =>
            rw [granted, Bool.and_true] at silent
            intro entry found
            obtain ⟨lock, claimed, _⟩ := Option.map_eq_some_iff.mp found
            rw [show request.claimed? = some lock from claimed] at silent
            cases silent
          · exact free

end Remembered

/-- A lock that has just been granted is held. -/
theorem get_of_granted (server : LockServer) (token : Token) :
    ({ server with
        keys := Function.update server.keys lockKey
          (some ⟨token, some (server.clock + lockTtlMs)⟩) } : LockServer).get
            lockKey = some token := by
  have lasts : server.clock < server.clock + lockTtlMs := by
    unfold lockTtlMs
    omega
  simp [LockServer.get, Expiring.read, lasts]

/-- When nobody has been granted the lock for as long as it lasts, however the
leader may have ended, a scheduler that stands by leads after its next tick. -/
theorem standby_takes_over {first more : List Action} {before after : State}
    (starts : run step State.initial first = some before)
    (runs : run step before more = some after)
    (silent : ∀ transition ∈ transitions step before more,
      claimGranted transition.before transition.action = false)
    (long : before.server.clock + lockTtlMs ≤ after.server.clock)
    {id : SchedulerId} {token : Token}
    (running : (after.schedulers id).running = true)
    (idle : (after.schedulers id).loop = none)
    (follows : (after.schedulers id).lock = none)
    (unused : ∀ pair ∈ after.drawn, pair.2 ≠ token) :
    ∃ final, run step after [.tick id token, .execute id, .reply id] =
        some final ∧
      final.Holds id ∧ (final.schedulers id).Sweeps := by
  have remembered := Remembered.of_run starts
  obtain ⟨_, free⟩ := Reachable.invariant
    (fun state => Remembered state ∧
      state.FreeFrom (before.server.clock + lockTtlMs))
    ⟨remembered, remembered.freeFrom⟩
    (fun _ _ _ kept silent taken =>
      ⟨kept.1.step taken, kept.1.freeFrom_step kept.2 silent taken⟩)
    (@Reachable.of_run _ _ _ _ _
      (fun state action => claimGranted state action = false) _ runs silent)
  have unheld := free.get_eq_none long
  have undrawn : (after.drawn.any fun pair => pair.2 = token) = false := by
    simpa using fun holder drawn same => unused (holder, drawn) same
  simp [run, step, running, idle, follows, undrawn, State.setScheduler,
    Scheduler.send, State.executed, Request.execute, LockServer.acquire,
    unheld, Scheduler.replied, State.Holds, Scheduler.Sweeps,
    get_of_granted]

theorem standby_takes_over_leaderDies :
    ∃ before after, run step State.initial leaderDies = some before ∧
      run step before standbyWaits = some after ∧
        ∃ final, run step after [.tick 1 3, .execute 1, .reply 1] =
            some final ∧ final.Holds 1 ∧ (final.schedulers 1).Sweeps := by
  have evaluated : (run step State.initial leaderDies).map (fun before =>
      (decide (∀ transition ∈ transitions step before standbyWaits,
          claimGranted transition.before transition.action = false),
        (run step before standbyWaits).map fun after => decide
          (before.server.clock + lockTtlMs ≤ after.server.clock ∧
            (after.schedulers 1).running = true ∧
            (after.schedulers 1).loop.isNone ∧
            (after.schedulers 1).lock = none ∧
            ∀ pair ∈ after.drawn, pair.2 ≠ 3))) =
        some (true, some true) := by decide +kernel
  obtain ⟨before, starts, found⟩ := Option.map_eq_some_iff.mp evaluated
  obtain ⟨silent, ends⟩ := Prod.mk.inj found
  obtain ⟨after, runs, met⟩ := Option.map_eq_some_iff.mp ends
  obtain ⟨long, running, idle, follows, unused⟩ := of_decide_eq_true met
  exact ⟨before, after, starts, runs, standby_takes_over starts runs
    (of_decide_eq_true silent) long running (Option.isNone_iff_eq_none.mp idle)
    follows unused⟩

end Leadership

end WebhookDelivery
