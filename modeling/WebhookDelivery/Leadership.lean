import WebhookDelivery.Scheduler

/-!
# At most one leader

Every token is drawn once, and only the scheduler that drew it ever sends it.
Whatever the schedulers believe, the lock is therefore held by one of them at
most, and nobody but its holder and its lifetime can end that.
-/

namespace WebhookDelivery

namespace Leadership

open Concurrency

/-- The commands that ask for the lock. -/
def Command.claims : Command → Bool
  | .acquire _ | .renew _ => true
  | .promoteDue | .reapExpired => false

/-- A tick asks for the lock with this request. -/
def Request.claims : Request → Bool
  | .tick command => command.claims
  | .release _ => false

/-- The lock a request is about. -/
def Request.lock? : Request → Option Lock
  | .tick (.acquire lock) | .tick (.renew lock) | .release lock => some lock
  | _ => none

/-- A lock that a scheduler holds in a variable or has sent. -/
inductive Scheduler.Mentions (scheduler : Scheduler) : Lock → Prop
  | variable {lock} (holds : scheduler.lock = some lock) : Mentions scheduler lock
  | acquire {lock reply} (sent : scheduler.loop = some ⟨.acquire lock, reply⟩) :
      Mentions scheduler lock
  | renew {lock reply} (sent : scheduler.loop = some ⟨.renew lock, reply⟩) :
      Mentions scheduler lock
  | release {lock reply} (sent : scheduler.closing = .releasing lock reply) :
      Mentions scheduler lock

/-- The tick goes on to the sweeps: it awaits one of them, or the server has
already granted the lock it asked for. -/
def Scheduler.Leads (scheduler : Scheduler) : Prop :=
  ∃ sent, scheduler.loop = some sent ∧
    (sent.command.claims → sent.reply = some true)

/-- The request with which a scheduler last asked for the lock. -/
def State.lastClaim? (state : State) (id : SchedulerId) : Option Event :=
  state.history.find? fun event =>
    decide (event.scheduler = id) && event.request.claims

/-- When the scheduler last asked for the lock, it got it for its full
lifetime, under a token that only this scheduler has drawn. -/
def State.Granted (state : State) (id : SchedulerId) : Prop :=
  ∃ event token, state.lastClaim? id = some event ∧ event.reply = true ∧
    event.server.keys lockKey =
      some ⟨token, some (event.server.clock + lockTtlMs)⟩ ∧
    (id, token) ∈ state.drawn ∧ ∀ other, (other, token) ∈ state.drawn → other = id

/-- Tokens belong to the schedulers that drew them, and leaders have been
granted the lock. -/
structure Invariant (state : State) : Prop where
  drawnOnce : ∀ {id other token}, (id, token) ∈ state.drawn →
    (other, token) ∈ state.drawn → id = other
  own : ∀ {id lock}, (state.schedulers id).Mentions lock →
    lock.key = lockKey ∧ (id, lock.token) ∈ state.drawn
  granted : ∀ {id}, (state.schedulers id).Leads → state.Granted id
  stored : ∀ {entry}, state.server.keys lockKey = some entry →
    ∃ owner, (owner, entry.value) ∈ state.drawn

namespace Invariant

theorem initial : Invariant State.initial where
  drawnOnce drawn := by cases drawn
  own mentions := by
    rcases mentions with ⟨⟨⟩⟩ | ⟨⟨⟩⟩ | ⟨⟨⟩⟩ | ⟨⟨⟩⟩
  granted leads := by
    obtain ⟨sent, ⟨⟩, _⟩ := leads
  stored found := by cases found

variable {state : State} {id : SchedulerId} {scheduler : Scheduler}

/-- A scheduler goes on with tokens of its own, and leads only if it did. -/
theorem setScheduler (invariant : Invariant state)
    (mentions : ∀ lock, scheduler.Mentions lock →
      lock.key = lockKey ∧ (id, lock.token) ∈ state.drawn)
    (leads : scheduler.Leads → (state.schedulers id).Leads) :
    Invariant (state.setScheduler id scheduler) where
  drawnOnce := invariant.drawnOnce
  own {other lock} mentioned := by
    simp only [State.setScheduler] at mentioned
    by_cases same : other = id
    · subst same
      rw [Function.update_self] at mentioned
      exact mentions lock mentioned
    · rw [Function.update_of_ne same] at mentioned
      exact invariant.own mentioned
  granted {other} leading := by
    simp only [State.setScheduler] at leading
    by_cases same : other = id
    · subst same
      rw [Function.update_self] at leading
      exact invariant.granted (leads leading)
    · rw [Function.update_of_ne same] at leading
      exact invariant.granted leading
  stored := invariant.stored

/-- A tick draws a token nobody has drawn. -/
theorem draw (invariant : Invariant state) {token : Token}
    (unused : ∀ pair ∈ state.drawn, pair.2 ≠ token) :
    Invariant { state with drawn := (id, token) :: state.drawn } where
  drawnOnce {first second other} drawn drawnToo := by
    rcases List.mem_cons.mp drawn with ⟨rfl, rfl⟩ | earlier
    · rcases List.mem_cons.mp drawnToo with ⟨rfl, rfl⟩ | earlierToo
      · rfl
      · exact absurd rfl (unused _ earlierToo)
    · rcases List.mem_cons.mp drawnToo with ⟨rfl, rfl⟩ | earlierToo
      · exact absurd rfl (unused _ earlier)
      · exact invariant.drawnOnce earlier earlierToo
  own mentions :=
    ⟨(invariant.own mentions).1,
      List.mem_cons_of_mem _ (invariant.own mentions).2⟩
  granted leads := by
    obtain ⟨event, held, last, reply, key, drawn, alone⟩ :=
      invariant.granted leads
    refine ⟨event, held, last, reply, key, List.mem_cons_of_mem _ drawn, ?_⟩
    intro other drawnToo
    rcases List.mem_cons.mp drawnToo with ⟨rfl, rfl⟩ | earlier
    · exact absurd rfl (unused _ drawn)
    · exact alone other earlier
  stored found := by
    obtain ⟨owner, drawn⟩ := invariant.stored found
    exact ⟨owner, List.mem_cons_of_mem _ drawn⟩

/-- A request that does not ask for the lock, or that another scheduler has
sent, leaves the last claim alone. -/
theorem lastClaim?_executed {request : Request} {resumed : Bool → Scheduler}
    {other : SchedulerId} (unrelated : other ≠ id ∨ request.claims = false) :
    (state.executed id request resumed).lastClaim? other =
      state.lastClaim? other := by
  have passed : (decide (id = other) && request.claims) = false := by
    rcases unrelated with distinct | silent
    · simp [Ne.symm distinct]
    · simp [silent]
  simp only [State.lastClaim?, State.executed, List.find?_cons, passed]

/-- The lock is granted for its full lifetime. -/
theorem key_of_claim {server : LockServer} {command : Command} {lock : Lock}
    (asks : command = .acquire lock ∨ command = .renew lock)
    (own : lock.key = lockKey)
    (granted : ((Request.tick command).execute server).1 = true) :
    ((Request.tick command).execute server).2.keys lockKey =
      some ⟨lock.token,
        some (((Request.tick command).execute server).2.clock +
          lockTtlMs)⟩ := by
  rcases asks with rfl | rfl
  · simp only [Request.execute, LockServer.acquire] at granted ⊢
    split at granted
    · simp [own]
    · cases granted
  · simp only [Request.execute, LockServer.renew] at granted ⊢
    split at granted
    next holds =>
      rw [own] at holds
      simp [holds, own, Expiring.pexpire, lockTtlMs]
    · cases granted

/-- The server stores no token but the one it is sent. -/
theorem stored_of_execute {server : LockServer} {request : Request}
    {entry : Expiring Token}
    (found : (request.execute server).2.keys lockKey = some entry) :
    server.keys lockKey = some entry ∨
      ∃ lock, request.lock? = some lock ∧ lock.token = entry.value := by
  have written : ∀ {key : String} {value : Option (Expiring Token)},
      Function.update server.keys key value lockKey = some entry →
        server.keys lockKey = some entry ∨ value = some entry := by
    intro key value found
    by_cases same : lockKey = key
    · subst same
      rw [Function.update_self] at found
      exact .inr found
    · rw [Function.update_of_ne same] at found
      exact .inl found
  cases request with
  | release lock =>
      simp only [Request.execute, LockServer.release] at found
      split at found
      · exact .inl ((written found).resolve_right (by simp))
      · exact .inl found
  | tick command =>
      cases command with
      | acquire lock =>
          simp only [Request.execute, LockServer.acquire] at found
          split at found
          · rcases written found with kept | ⟨⟨⟩⟩
            · exact .inl kept
            · exact .inr ⟨lock, rfl, rfl⟩
          · exact .inl found
      | renew lock =>
          simp only [Request.execute, LockServer.renew] at found
          split at found
          · rcases written found with kept | ⟨⟨⟩⟩
            · exact .inl kept
            · exact .inr ⟨lock, rfl, rfl⟩
          · exact .inl found
      | promoteDue | reapExpired => exact .inl found

/-- A request is executed.  Its sender leads afterwards if it led before, or
if this is the grant of its claim. -/
theorem executed (invariant : Invariant state) {request : Request}
    {resumed : Bool → Scheduler}
    (sent : ∀ lock, request.lock? = some lock →
      (state.schedulers id).Mentions lock)
    (mentions : ∀ reply lock, (resumed reply).Mentions lock →
      (state.schedulers id).Mentions lock)
    (leads : (resumed (request.execute state.server).1).Leads →
      (request.claims = false ∧ (state.schedulers id).Leads) ∨
        (request.execute state.server).1 = true ∧ ∃ command lock,
          request = .tick command ∧
            (command = .acquire lock ∨ command = .renew lock)) :
    Invariant (state.executed id request resumed) where
  drawnOnce := invariant.drawnOnce
  own {other lock} mentioned := by
    simp only [State.executed] at mentioned
    by_cases same : other = id
    · subst same
      rw [Function.update_self] at mentioned
      exact invariant.own (mentions _ lock mentioned)
    · rw [Function.update_of_ne same] at mentioned
      exact invariant.own mentioned
  granted {other} leading := by
    simp only [State.executed] at leading
    by_cases same : other = id
    · subst same
      rw [Function.update_self] at leading
      rcases leads leading with ⟨silent, led⟩ |
        ⟨reply, command, lock, rfl, asks⟩
      · obtain ⟨event, held, last, rest⟩ := invariant.granted led
        exact ⟨event, held, by rwa [lastClaim?_executed (.inr silent)], rest⟩
      · have about : (Request.tick command).lock? = some lock ∧
            command.claims := by
          rcases asks with rfl | rfl <;> exact ⟨rfl, rfl⟩
        obtain ⟨key, drawn⟩ := invariant.own (sent lock about.1)
        let event : Event := ⟨other, .tick command,
          ((Request.tick command).execute state.server).1,
          ((Request.tick command).execute state.server).2⟩
        refine ⟨event, lock.token, ?_, reply, key_of_claim asks key reply,
          drawn, fun _ drawnToo => invariant.drawnOnce drawnToo drawn⟩
        simp [event, State.lastClaim?, State.executed, Request.claims,
          about.2]
    · rw [Function.update_of_ne same] at leading
      obtain ⟨event, held, last, rest⟩ := invariant.granted leading
      exact ⟨event, held, by rwa [lastClaim?_executed (.inl same)], rest⟩
  stored found := by
    rcases stored_of_execute found with earlier | ⟨lock, about, same⟩
    · exact invariant.stored earlier
    · exact ⟨id, same ▸ (invariant.own (sent lock about)).2⟩

theorem elapse (invariant : Invariant state) (ms : Nat) :
    Invariant { state with server := state.server.elapse ms } where
  drawnOnce := invariant.drawnOnce
  own := invariant.own
  granted := invariant.granted
  stored := invariant.stored

private theorem tick {before after : State} {id : SchedulerId}
    {token : Token} (invariant : Invariant before)
    (taken : step before (.tick id token) = some after) : Invariant after := by
  have unclaimed : ∀ command, command.claims →
      ¬((before.schedulers id).send command).Leads := by
    rintro command claims ⟨_, ⟨⟩, claimed⟩
    cases claimed claims
  simp only [step] at taken
  split at taken
  next running asleep =>
    split at taken
    next lock holds =>
      cases taken
      refine invariant.setScheduler ?_
        fun leads => absurd leads (unclaimed _ rfl)
      rintro other (⟨holds⟩ | ⟨⟨⟩⟩ | ⟨⟨⟩⟩ | ⟨sent⟩)
      · exact invariant.own (.variable holds)
      · exact invariant.own (.variable holds)
      · exact invariant.own (.release sent)
    next unlocked =>
      split at taken
      · cases taken
      next unused =>
        cases taken
        have drawn := @draw before id invariant token fun pair member same =>
          unused (List.any_eq_true.mpr ⟨pair, member, by simpa using same⟩)
        refine drawn.setScheduler ?_
          fun leads => absurd leads (unclaimed _ rfl)
        rintro other (⟨holds⟩ | ⟨⟨⟩⟩ | ⟨⟨⟩⟩ | ⟨sent⟩)
        · exact drawn.own (.variable holds)
        · exact ⟨rfl, List.mem_cons_self⟩
        · exact drawn.own (.release sent)
  · cases taken

/-- A reply ends the tick or lets it go on; the variable holds what was asked
for. -/
private theorem replied (invariant : Invariant state) {command : Command}
    {reply : Bool} (sent : (state.schedulers id).loop =
      some ⟨command, some reply⟩) :
    Invariant (state.setScheduler id
      ((state.schedulers id).replied command reply)) := by
  refine invariant.setScheduler (fun lock mentions => ?_) fun leads => ?_
  · cases command with
    | acquire asked =>
        cases reply with
        | true =>
            rcases mentions with ⟨⟨⟩⟩ | ⟨⟨⟩⟩ | ⟨⟨⟩⟩ | ⟨closing⟩
            · exact invariant.own (.acquire sent)
            · exact invariant.own (.release closing)
        | false =>
            rcases mentions with ⟨⟨⟩⟩ | ⟨⟨⟩⟩ | ⟨⟨⟩⟩ | ⟨closing⟩
            exact invariant.own (.release closing)
    | renew asked =>
        cases reply with
        | true =>
            rcases mentions with ⟨holds⟩ | ⟨⟨⟩⟩ | ⟨⟨⟩⟩ | ⟨closing⟩
            · exact invariant.own (.variable holds)
            · exact invariant.own (.release closing)
        | false =>
            rcases mentions with ⟨⟨⟩⟩ | ⟨⟨⟩⟩ | ⟨⟨⟩⟩ | ⟨closing⟩
            exact invariant.own (.release closing)
    | promoteDue | reapExpired =>
        rcases mentions with ⟨holds⟩ | ⟨⟨⟩⟩ | ⟨⟨⟩⟩ | ⟨closing⟩
        · exact invariant.own (.variable holds)
        · exact invariant.own (.release closing)
  · cases command with
    | acquire asked | renew asked =>
        cases reply with
        | true => exact ⟨_, sent, fun _ => rfl⟩
        | false => obtain ⟨_, ⟨⟩, _⟩ := leads
    | promoteDue => exact ⟨_, sent, fun claims => by cases claims⟩
    | reapExpired => obtain ⟨_, ⟨⟩, _⟩ := leads

private theorem signalled (invariant : Invariant state) :
    Invariant (state.setScheduler id (state.schedulers id).signalled) := by
  unfold Scheduler.signalled
  split
  · exact invariant.setScheduler (fun _ => invariant.own) fun leads => leads
  · refine invariant.setScheduler ?_ fun leads => leads
    rintro lock (⟨holds⟩ | ⟨loop⟩ | ⟨loop⟩ | ⟨closing⟩)
    · exact invariant.own (.variable holds)
    · exact invariant.own (.acquire loop)
    · exact invariant.own (.renew loop)
    · dsimp only at closing
      split at closing
      next holds =>
        cases closing
        exact invariant.own (.variable holds)
      · cases closing

/-- Every step keeps tokens with their owners and leaders granted. -/
theorem step {before after : State} {action : Action}
    (invariant : Invariant before)
    (taken : Leadership.step before action = some after) :
    Invariant after := by
  cases action with
  | tick id token => exact invariant.tick taken
  | execute id =>
      simp only [Leadership.step] at taken
      split at taken
      next command sent =>
        cases taken
        refine invariant.executed ?_ ?_ ?_
        · rintro lock about
          cases command with
          | acquire asked =>
              cases about
              exact .acquire sent
          | renew asked =>
              cases about
              exact .renew sent
          | promoteDue | reapExpired => cases about
        · rintro reply lock (⟨holds⟩ | ⟨⟨⟩⟩ | ⟨⟨⟩⟩ | ⟨closing⟩)
          · exact .variable holds
          · exact .acquire sent
          · exact .renew sent
          · exact .release closing
        · rintro ⟨_, ⟨⟩, claimed⟩
          cases command with
          | acquire lock =>
              exact .inr ⟨Option.some_inj.mp (claimed rfl), _, lock, rfl,
                .inl rfl⟩
          | renew lock =>
              exact .inr ⟨Option.some_inj.mp (claimed rfl), _, lock, rfl,
                .inr rfl⟩
          | promoteDue | reapExpired =>
              exact .inl ⟨rfl, _, sent, fun claims => by cases claims⟩
      · cases taken
  | reply id =>
      simp only [Leadership.step] at taken
      split at taken
      next command reply sent =>
        cases taken
        exact invariant.replied sent
      · cases taken
  | fail id =>
      simp only [Leadership.step] at taken
      split at taken
      next sent =>
        cases taken
        refine invariant.setScheduler ?_ ?_
        · rintro lock (⟨holds⟩ | ⟨⟨⟩⟩ | ⟨⟨⟩⟩ | ⟨closing⟩)
          · exact invariant.own (.variable holds)
          · exact invariant.own (.release closing)
        · rintro ⟨_, ⟨⟩, _⟩
      · cases taken
  | signal id =>
      simp only [Leadership.step] at taken
      split at taken
      · cases taken
        exact invariant.signalled
      · cases taken
  | executeRelease id =>
      simp only [Leadership.step] at taken
      split at taken
      next lock sent =>
        cases taken
        refine invariant.executed ?_ ?_ ?_
        · rintro _ ⟨⟩
          exact .release sent
        · rintro reply other (⟨holds⟩ | ⟨loop⟩ | ⟨loop⟩ | ⟨⟨⟩⟩)
          · exact .variable holds
          · exact .acquire loop
          · exact .renew loop
          · exact .release sent
        · exact fun leads => .inl ⟨rfl, leads⟩
      · cases taken
  | replyRelease id =>
      simp only [Leadership.step] at taken
      split at taken
      next lock reply sent =>
        cases taken
        refine invariant.setScheduler ?_ fun leads => leads
        rintro other (⟨holds⟩ | ⟨loop⟩ | ⟨loop⟩ | ⟨⟨⟩⟩)
        · exact invariant.own (.variable holds)
        · exact invariant.own (.acquire loop)
        · exact invariant.own (.renew loop)
      · cases taken
  | exit id =>
      simp only [Leadership.step] at taken
      split at taken
      · cases taken
        refine invariant.setScheduler ?_ ?_
        · rintro lock (⟨⟨⟩⟩ | ⟨⟨⟩⟩ | ⟨⟨⟩⟩ | ⟨⟨⟩⟩)
        · rintro ⟨_, ⟨⟩, _⟩
      · cases taken
  | elapse ms =>
      cases taken
      exact invariant.elapse ms

end Invariant

/-! ## What the lock guarantees -/

/-- The scheduler believes to hold the lock, and does. -/
def State.Holds (state : State) (id : SchedulerId) : Prop :=
  ∃ lock, (state.schedulers id).lock = some lock ∧
    state.server.get lockKey = some lock.token

/-- The request executed in a step, and its sender. -/
def request? (state : State) : Action → Option (SchedulerId × Request)
  | .execute id =>
      match (state.schedulers id).loop with
      | some ⟨command, none⟩ => some (id, .tick command)
      | _ => none
  | .executeRelease id =>
      match (state.schedulers id).closing with
      | .releasing lock none => some (id, .release lock)
      | _ => none
  | _ => none

/-- The lock with which a request presupposes that its sender holds it. -/
def Request.presupposes : Request → Option Lock
  | .tick (.renew lock) | .release lock => some lock
  | _ => none

theorem Request.lock?_of_presupposes {request : Request} {lock : Lock}
    (presupposes : request.presupposes = some lock) :
    request.lock? = some lock := by
  cases request with
  | release asked => exact presupposes
  | tick command => cases command <;> first | exact presupposes | cases presupposes

/-- The tick of the scheduler has gone on to the sweeps. -/
def Scheduler.Sweeps (scheduler : Scheduler) : Prop :=
  ∃ reply, scheduler.loop = some ⟨.promoteDue, reply⟩ ∨
    scheduler.loop = some ⟨.reapExpired, reply⟩

/-- What a step of the schedulers may do to the lock. -/
structure Safe (before : State) (action : Action) (after : State) :
    Prop where
  owned : ∀ {token}, after.server.get lockKey = some token →
    ∃ owner, (owner, token) ∈ after.drawn
  unique : ∀ {id other}, after.Holds id → after.Holds other → id = other
  handover : ∀ {owner token}, (owner, token) ∈ before.drawn →
    before.server.get lockKey = some token →
      after.server.get lockKey ≠ some token →
        after.server.get lockKey = none ∧
          (action = .executeRelease owner ∨
            ∃ ms expiresAt, action = .elapse ms ∧
              before.server.keys lockKey = some ⟨token, some expiresAt⟩ ∧
                expiresAt ≤ after.server.clock)
  powerless : ∀ {id request lock}, request? before action = some (id, request) →
    request.presupposes = some lock →
      before.server.get lockKey ≠ some lock.token →
        after.history = ⟨id, request, false, before.server⟩ :: before.history ∧
          after.server = before.server
  leads : ∀ {id}, (after.schedulers id).Sweeps → after.Granted id

/-- An executed request is one that was sent. -/
theorem request?_eq_some {before after : State} {action : Action}
    {id : SchedulerId} {request : Request}
    (taken : step before action = some after)
    (asked : request? before action = some (id, request)) :
    after.server = (request.execute before.server).2 ∧
      after.history = ⟨id, request, (request.execute before.server).1,
        (request.execute before.server).2⟩ :: before.history ∧
      (∀ lock, request.lock? = some lock →
        (before.schedulers id).Mentions lock) ∧
      (∀ lock, request = .release lock → action = .executeRelease id) := by
  cases action with
  | execute sender =>
      simp only [request?] at asked
      split at asked
      next command sent =>
        cases asked
        simp only [step, sent] at taken
        cases taken
        refine ⟨rfl, rfl, ?_, fun lock release => by cases release⟩
        rintro lock about
        cases command with
        | acquire asked =>
            cases about
            exact .acquire sent
        | renew asked =>
            cases about
            exact .renew sent
        | promoteDue | reapExpired => cases about
      · cases asked
  | executeRelease sender =>
      simp only [request?] at asked
      split at asked
      next lock sent =>
        cases asked
        simp only [step, sent] at taken
        cases taken
        refine ⟨rfl, rfl, ?_, fun _ _ => rfl⟩
        rintro _ ⟨⟩
        exact .release sent
      · cases asked
  | tick _ _ | reply _ | fail _ | signal _ | replyRelease _ | exit _
  | elapse _ => cases asked

/-- Only an executed request or the passage of time touches the server. -/
theorem server_of_step {before after : State} {action : Action}
    (taken : step before action = some after) :
    after.server = before.server ∨
      (∃ ms, action = .elapse ms ∧
        after.server = before.server.elapse ms) ∨
      ∃ id request, request? before action = some (id, request) := by
  cases action with
  | execute id =>
      simp only [step] at taken
      split at taken
      next command sent =>
        exact .inr (.inr ⟨id, .tick command, by simp [request?, sent]⟩)
      · cases taken
  | executeRelease id =>
      simp only [step] at taken
      split at taken
      next lock sent =>
        exact .inr (.inr ⟨id, .release lock, by simp [request?, sent]⟩)
      · cases taken
  | elapse ms =>
      cases taken
      exact .inr (.inl ⟨ms, rfl, rfl⟩)
  | tick id token =>
      left
      simp only [step] at taken
      split at taken
      · split at taken
        · cases taken
          rfl
        · split at taken
          · cases taken
          · cases taken
            rfl
      · cases taken
  | reply id | fail id | signal id | replyRelease id | exit id =>
      left
      simp only [step] at taken
      split at taken
      · cases taken
        rfl
      · cases taken

/-- The holder loses the lock to no request but its own release. -/
private theorem held_of_execute {state : State} (invariant : Invariant state)
    {id owner : SchedulerId} {request : Request} {token : Token}
    (drawn : (owner, token) ∈ state.drawn)
    (held : state.server.get lockKey = some token)
    (own : ∀ lock, request.lock? = some lock →
      (state.schedulers id).Mentions lock)
    (lost : (request.execute state.server).2.get lockKey ≠ some token) :
    (request.execute state.server).2.get lockKey = none ∧ id = owner ∧
      ∃ lock, request = .release lock := by
  have kept : (request.execute state.server).2 ≠ state.server := by
    intro same
    rw [same] at lost
    exact lost held
  cases request with
  | release lock =>
      obtain ⟨key, drawnToo⟩ := invariant.own (own lock rfl)
      by_cases holds : state.server.get lock.key = some lock.token
      · have none := LockServer.get_release holds
        rw [key] at holds none
        have same : lock.token = token :=
          Option.some_inj.mp (holds.symm.trans held)
        rw [same] at drawnToo
        exact ⟨none, invariant.drawnOnce drawnToo drawn, lock, rfl⟩
      · exact absurd (congrArg Prod.snd (LockServer.release_of_other holds))
          kept
  | tick command =>
      cases command with
      | acquire lock =>
          have key := (invariant.own (own lock rfl)).1
          rw [← key] at held
          exact absurd (congrArg Prod.snd (LockServer.acquire_of_held held))
            kept
      | renew lock =>
          have key := (invariant.own (own lock rfl)).1
          by_cases holds : state.server.get lock.key = some lock.token
          · have still := @LockServer.get_renew state.server lock lockTtlMs
              (by decide) holds
            rw [key] at holds still
            rw [← holds.symm.trans held] at lost
            exact absurd still lost
          · exact absurd (congrArg Prod.snd (LockServer.renew_of_other holds))
              kept
      | promoteDue | reapExpired => exact absurd rfl kept

/-- Every step of every run of the schedulers is safe. -/
theorem leader_lock_safe (actions : List Action) :
    ∀ transition ∈ transitions step State.initial actions,
      Safe transition.before transition.action transition.after := by
  intro transition member
  have taken := step_of_mem_transitions member
  obtain ⟨before, after⟩ :=
    @invariant_of_transitions _ _ step Invariant (fun _ _ => True)
      (fun _ _ _ held _ taken => held.step taken) _ Invariant.initial actions
      (fun _ _ => trivial) transition member
  constructor
  · intro token held
    obtain ⟨entry, found, read⟩ := Option.bind_eq_some_iff.mp held
    obtain ⟨owner, drawn⟩ := after.stored found
    have same : entry.value = token := by
      unfold Expiring.read at read
      split at read
      · exact Option.some_inj.mp read
      · split at read
        · exact Option.some_inj.mp read
        · cases read
    exact ⟨owner, same ▸ drawn⟩
  · rintro id other ⟨lock, believes, held⟩ ⟨lockToo, believesToo, heldToo⟩
    have same : lock.token = lockToo.token :=
      Option.some_inj.mp (held.symm.trans heldToo)
    have drawn := (after.own (.variable believes)).2
    have drawnToo := (after.own (.variable believesToo)).2
    rw [← same] at drawnToo
    exact after.drawnOnce drawn drawnToo
  · intro owner token drawn held lost
    rcases server_of_step taken with same | ⟨ms, acts, elapsed⟩ |
      ⟨id, request, asked⟩
    · rw [same] at lost
      exact absurd held lost
    · rw [elapsed] at lost ⊢
      obtain ⟨none, expiresAt, stored, passed⟩ :=
        LockServer.get_elapse held lost
      exact ⟨none, .inr ⟨ms, expiresAt, acts, stored, passed⟩⟩
    · obtain ⟨served, _, own, releases⟩ := request?_eq_some taken asked
      rw [served] at lost ⊢
      obtain ⟨none, rfl, lock, release⟩ :=
        held_of_execute before drawn held own lost
      exact ⟨none, .inl (releases lock release)⟩
  · intro id request lock asked presupposes other
    obtain ⟨served, recorded, own, _⟩ := request?_eq_some taken asked
    rw [served, recorded]
    have mentioned :=
      own lock (Request.lock?_of_presupposes presupposes)
    rw [← (before.own mentioned).1] at other
    cases request with
    | release asked =>
        cases presupposes
        simp only [Request.execute, LockServer.release_of_other other,
          and_self]
    | tick command =>
        cases command with
        | renew asked =>
            cases presupposes
            simp only [Request.execute, LockServer.renew_of_other other,
              and_self]
        | acquire _ | promoteDue | reapExpired => cases presupposes
  · rintro id ⟨reply, sweeping | sweeping⟩
    · exact after.granted ⟨_, sweeping, fun claims => by cases claims⟩
    · exact after.granted ⟨_, sweeping, fun claims => by cases claims⟩

/-- Scheduler 0 stalls after it has acquired the lock; scheduler 1 takes the
lock when it has expired, and the renewal of scheduler 0 fails. -/
def takenOver : List Action :=
  [.tick 0 1, .execute 0, .reply 0, .elapse 5000, .tick 1 2, .execute 1,
    .reply 1, .execute 0, .reply 0, .execute 0, .reply 0, .tick 0 3,
    .execute 0, .reply 0]

theorem leader_lock_safe_takenOver :
    (run step State.initial takenOver).isSome ∧
      ∀ transition ∈ transitions step State.initial takenOver,
        Safe transition.before transition.action transition.after :=
  ⟨by decide +kernel, leader_lock_safe takenOver⟩

end Leadership

end WebhookDelivery
