import WebhookDelivery.Schedule
import WebhookDelivery.Promises
import WebhookDelivery.Senders

/-!
# Waits

`process` writes the time of the next try into the row, and then moves the job
to `delayed` under the same time.  A worker that stops in between leaves the
job to the reaper, which puts the id straight on `ready`; the next worker does
not look at the time in the row.
-/

namespace WebhookDelivery

open Concurrency

/-! ## The property -/

/-- A job whose row has been reset for a replay. -/
def Event.reset? : Event → Option JobId
  | ⟨_, .resetForReplay jobId, .ok (some _)⟩ => some jobId
  | _ => none

/-- The times that `process` has written for a job since its last replay. -/
def waitsOf (jobId : JobId) : List Event → List Int
  | [] => []
  | event :: earlier =>
      if event.reset? = some jobId then []
      else match event.postponed? with
        | some (id, runAt) =>
            if id = jobId then runAt :: waitsOf jobId earlier
            else waitsOf jobId earlier
        | none => waitsOf jobId earlier

def State.waits (state : State) (jobId : JobId) : List Int :=
  waitsOf jobId state.history

/-- The request that a process starts in this step, whether or not it gets
through. -/
def startedRequest? (state : State) (action : Action) :
    Option DeliveryRequest := do
  match ← performedCall? state action with
  | .fetch request => some request
  | _ => none

/-- No request for a job starts before the times written for it. -/
def Awaited (timed : Timed) (action : Action) : Prop :=
  ∀ request ∈ startedRequest? timed.state action,
    ∀ runAt ∈ timed.state.waits request.jobId, runAt ≤ timed.clock

instance (timed : Timed) (action : Action) :
    Decidable (Awaited timed action) :=
  inferInstanceAs (Decidable (∀ request ∈ startedRequest? timed.state action,
    ∀ runAt ∈ timed.state.waits request.jobId, runAt ≤ timed.clock))

/-! ## Runs on one clock -/

/-- The steps of the system on one clock, by which the reaper goes as well. -/
def clockedStep (deployment : Deployment) (timed : Timed) (action : Action) :
    Option Timed :=
  (timedStep deployment timed action).map fun after =>
    match action with
    | .reap nowMs _ => { after with clock := max after.clock nowMs }
    | _ => after

/-- The reaper returns a job to `ready` only when the times written for it
have come. -/
def ReapsDue (timed : Timed) : Action → Prop
  | .reap nowMs batchSize =>
      ∀ jobId ∈ timed.state.store.redis.leases.rangeByScore nowMs batchSize,
        ∀ runAt ∈ timed.state.waits jobId, runAt ≤ max timed.clock nowMs
  | _ => True

instance (timed : Timed) : DecidablePred (ReapsDue timed) :=
  fun action => by
    induction action using Action.casesOn <;> unfold ReapsDue <;>
      infer_instance

/-- A worker that has lost its job to the reaper sends no request for it, writes
no time for it, and neither takes it out of anybody's hands nor brings its
time forward. -/
def Call.LeavesAlone (redis : Redis) : Call → Prop
  | .fetch _ => False
  | .updateState update => update.runAt = none
  | .ack jobId => (redis.places jobId).inflight = 0
  | .retryLater jobId runAtMs => (redis.places jobId).inflight = 0 ∧
      ∃ time ∈ redis.delayed.score? jobId, time ≤ runAtMs
  | .deadLetter _ => False
  | _ => True

instance (redis : Redis) : DecidablePred (Call.LeavesAlone redis) :=
  fun call => by
    induction call using Call.casesOn <;> unfold Call.LeavesAlone <;>
      infer_instance

/-- Workers that have lost their job to the reaper leave it alone. -/
def Yields (state : State) (action : Action) : Prop :=
  ∀ call ∈ overruledCall? state action,
    call.LeavesAlone state.store.redis

instance (state : State) (action : Action) :
    Decidable (Yields state action) :=
  inferInstanceAs (Decidable (∀ call ∈ overruledCall? state action,
    call.LeavesAlone state.store.redis))

variable {deployment : Deployment}

theorem clockedStep_cases {before after : Timed} {action : Action}
    (taken : clockedStep deployment before action = some after) :
    step deployment before.state action = some after.state ∧
      before.clock ≤ after.clock ∧
      (∀ nowMs batchSize, action = .promote nowMs batchSize →
        nowMs ≤ after.clock) ∧
      ∀ nowMs batchSize, action = .reap nowMs batchSize →
        max before.clock nowMs ≤ after.clock := by
  unfold clockedStep at taken
  rw [Option.map_eq_some_iff] at taken
  obtain ⟨timed, steps, same⟩ := taken
  obtain ⟨steps, ticks⟩ := timedStep_cases steps
  have later := clock_mono ticks
  cases action with
  | reap nowMs batchSize =>
      subst same
      refine ⟨steps, le_max_of_le_left later, fun _ _ other => ?_, ?_⟩
      · cases other
      · rintro _ _ ⟨⟩
        exact max_le_max_right nowMs later
  | promote nowMs batchSize =>
      subst same
      refine ⟨steps, later, ?_, fun _ _ other => ?_⟩
      · rintro _ _ ⟨⟩
        exact (le_max_right _ _).trans (Option.some.inj ticks).le
      · cases other
  | _ =>
      subst same
      refine ⟨steps, later, fun _ _ other => ?_, fun _ _ other => ?_⟩ <;>
        cases other

/-! ## Jobs whose time has not come -/

theorem mem_waitsOf_cons {jobId : JobId} {event : Event}
    {earlier : List Event} {runAt : Int}
    (waits : runAt ∈ waitsOf jobId (event :: earlier)) :
    event.postponed? = some (jobId, runAt) ∨ runAt ∈ waitsOf jobId earlier := by
  unfold waitsOf at waits
  split at waits
  · cases waits
  · split at waits
    next id time postponed =>
      split at waits
      next same =>
        subst same
        rcases List.mem_cons.mp waits with rfl | old
        · exact .inl postponed
        · exact .inr old
      · exact .inr waits
    · exact .inr waits

/-- The id is in `delayed` until then or later, or with a worker that moves it
there, or with nobody. -/
structure Postponed (state : State) (jobId : JobId) (runAt : Int) :
    Prop where
  issued : jobId ∈ state.store.db.issued
  ready : (state.places jobId).ready = 0
  dlq : (state.places jobId).dlq = 0
  scored : ∀ time, state.store.redis.delayed.score? jobId = some time →
    runAt ≤ time
  promised : ∀ pid, (state.claim pid).holds? = some jobId →
    ∃ time, state.promise pid (state.claim pid) = some (jobId, time) ∧
      runAt ≤ time

variable {before after : State} {action : Action}

theorem unharmed_of_yields (yields : Yields before action) :
    Unharmed before action := by
  rintro ⟨jobId, call⟩ overruled
  obtain ⟨pid, performs, pending, releases, superseded⟩ :=
    overruledRelease?_eq_some.mp (Option.mem_def.mp overruled)
  have spares := yields call
    (overruledCall?_of_superseded performs pending superseded)
  cases call <;> cases releases
  case ack => exact spares
  case retryLater runAtMs =>
    obtain ⟨absent, time, scored, _⟩ := spares
    refine ⟨absent, ?_⟩
    rw [State.places, Redis.delayed_eq_one_iff, Option.mem_def.mp scored]
    rfl
  case deadLetter => exact spares.elim

theorem performs_of_startedRequest? {state : State}
    {request : DeliveryRequest}
    (starts : startedRequest? state action = some request) :
    ∃ pid, action.performer? = some pid ∧
      state.pending? pid = some (.fetch request) := by
  simp only [startedRequest?, performedCall?, Option.bind_eq_bind,
    Option.bind_eq_some_iff] at starts
  obtain ⟨call, ⟨pid, performs, pending⟩, same⟩ := starts
  cases call <;> cases same
  exact ⟨pid, performs, pending⟩

/-- A process that performs no call has the claim it had, or holds no job. -/
theorem claim_of_unperformed {pid : Pid}
    (taken : step deployment before action = some after)
    (quiet : action.performer? ≠ some pid) :
    after.claim pid = before.claim pid ∨
      (after.claim pid).holds? = none := by
  by_cases acts : action.actor? = some pid
  · cases steps_of_step taken with
    | start unused =>
        cases acts
        rw [State.claim_setProcess_self]
        rcases Process.proceed_claim with same | none
        · exact .inr (congrArg Claim.holds? same)
        · exact .inr (congrArg Claim.holds? none)
    | @failed _ failure process call next rescue found running =>
        cases acts
        rw [State.claim_setProcess_self, State.claim_of_found found]
        rcases Process.proceed_claim with same | none
        · rcases Claim.lost_cases process.claim with kept | gone
          · exact .inl (same.trans kept)
          · exact .inr (congrArg Claim.holds? (same.trans gone))
        · exact .inr (congrArg Claim.holds? none)
    | crashed found live =>
        cases acts
        rw [State.claim_setProcess_self]
        exact .inr rfl
    | performed _ _ _ resumes =>
        have same := acts.symm.trans resumes.performer?.2
        cases same
        exact absurd resumes.performer?.1 quiet
    | _ => cases acts
  · rcases overruled_of_other taken acts with same | ⟨jobId, _, overruled⟩
    · exact .inl same
    · exact .inr (congrArg Claim.holds? overruled)

namespace Postponed

variable {jobId : JobId} {runAt : Int}

/-- Whoever holds the job is about to move it to `delayed`. -/
theorem call_of_held (postponed : Postponed before jobId runAt)
    (promising : before.Promising) {pid : Pid} {call : Call}
    (pending : before.pending? pid = some call)
    (held : (before.claim pid).holds? = some jobId) :
    ∃ time, call = .retryLater jobId time ∧ runAt ≤ time := by
  obtain ⟨time, promised, later⟩ := postponed.promised pid held
  exact ⟨time, promising.allowed pending _ promised, later⟩

/-- What a call may do to the job. -/
theorem call_cases (postponed : Postponed before jobId runAt)
    (invariant : QueueInvariant before) (promising : before.Promising)
    (yields : Yields before action) {pid : Pid} {call : Call}
    (performs : action.performer? = some pid)
    (pending : before.pending? pid = some call) (choice : Choice) :
    call.target? (exec deployment choice call before.store).1 ≠ some jobId ∨
      call = .ack jobId ∨
        ∃ time, call = .retryLater jobId time ∧ runAt ≤ time := by
  by_cases held : (before.claim pid).holds? = some jobId
  · exact .inr (.inr (postponed.call_of_held promising pending held))
  have permits := invariant.permits pending
  have spares : before.claim pid = .superseded jobId →
      call.LeavesAlone before.store.redis := fun superseded =>
    yields call (overruledCall?_of_superseded performs pending superseded)
  have unclaimed : ∀ {claim : Claim}, claim.holds? = some jobId →
      before.claim pid ≠ claim := by
    rintro claim holds rfl
    exact held holds
  refine or_iff_not_imp_left.mpr fun related => ?_
  rw [not_not] at related
  cases call with
  | push id =>
      cases related
      rcases permits with inserted | replaying
      · exact absurd inserted (unclaimed rfl)
      · exact absurd replaying (unclaimed rfl)
  | pushDelayed id time =>
      cases related
      exact absurd permits (unclaimed rfl)
  | zaddLease id expiry =>
      cases related
      exact absurd permits (unclaimed rfl)
  | brpoplpush =>
      have popped : before.store.redis.brpoplpush.1 = some jobId := by
        simp only [exec] at related
        cases next : before.store.redis.brpoplpush.1 with
        | none =>
            rw [next] at related
            cases related
        | some id =>
            rw [next] at related
            exact related
      have present := ready_of_brpoplpush popped
      have absent := postponed.ready
      unfold State.places at absent
      omega
  | popDlq =>
      have drawn : before.store.redis.popDlq.1 = some jobId := by
        simp only [exec] at related
        cases next : before.store.redis.popDlq.1 with
        | none =>
            rw [next] at related
            cases related
        | some id =>
            rw [next] at related
            exact related
      have present := dlq_of_popDlq drawn
      have absent := postponed.dlq
      unfold State.places at absent
      omega
  | insertJob input =>
      simp only [exec] at related
      cases inserted : (before.store.db.insertJob deployment.jsonb
          deployment.maxAttempts choice.uuid choice.now input).1 with
      | error failure =>
          rw [inserted] at related
          cases related
      | ok job =>
          rw [inserted] at related
          cases related
          exact absurd postponed.issued (fresh_of_insertJob inserted).1
  | ack id =>
      cases related
      exact .inl rfl
  | retryLater id time =>
      cases related
      rcases permits with reserved | superseded
      · exact absurd reserved (unclaimed rfl)
      · obtain ⟨_, score, scored, later⟩ := spares superseded
        exact .inr ⟨time, rfl, (postponed.scored score scored).trans later⟩
  | deadLetter id =>
      cases related
      rcases permits with reserved | superseded
      · exact absurd reserved (unclaimed rfl)
      · exact (spares superseded).elim
  | _ => cases related

/-- What is left of the queue after a step. -/
theorem kept_of_step (postponed : Postponed before jobId runAt)
    (invariant : QueueInvariant before) (promising : before.Promising)
    (yields : Yields before action)
    (taken : WebhookDelivery.step deployment before action = some after)
    (unpromoted : ∀ nowMs batchSize, action = .promote nowMs batchSize →
      nowMs < runAt)
    (unreaped : ∀ nowMs batchSize, action = .reap nowMs batchSize →
      jobId ∉ before.store.redis.leases.rangeByScore nowMs batchSize) :
    (after.places jobId).ready = 0 ∧ (after.places jobId).dlq = 0 ∧
      ∀ time, after.store.redis.delayed.score? jobId = some time →
        runAt ≤ time := by
  cases steps_of_step taken with
  | @performed _ pid choice process call next rescue resumed found running
      connected resumes =>
      have pending := State.pending?_of_running found running
      have places := exec_places deployment choice call before.store jobId
      have schedules := exec_score deployment choice call before.store jobId
      simp only [State.places, State.perform_store, places, schedules]
      rcases postponed.call_cases invariant promising yields
          resumes.performer?.1 pending choice with
        unrelated | rfl | ⟨time, rfl, later⟩
      · rw [Call.moves_of_target unrelated,
          Call.schedules_of_target unrelated]
        exact ⟨postponed.ready, postponed.dlq, postponed.scored⟩
      · simp only [Call.moves, if_true]
        exact ⟨postponed.ready, postponed.dlq, postponed.scored⟩
      · simp only [Call.moves, Call.schedules, if_true]
        refine ⟨postponed.ready, postponed.dlq, ?_⟩
        rintro _ ⟨⟩
        exact later
  | @promoted nowMs batchSize =>
      have waits : jobId ∉
          before.store.redis.delayed.rangeByScore nowMs batchSize := by
        intro due
        obtain ⟨time, found, reached⟩ :=
          SortedSets.SortedSet.score?_of_mem_rangeByScore due
        have early := unpromoted nowMs batchSize rfl
        have later := postponed.scored time found
        omega
      have moves := before.store.redis.places_promoteScript nowMs batchSize
        jobId
      have schedules := before.store.redis.score_promoteScript nowMs batchSize
        jobId
      rw [if_neg waits] at moves schedules
      refine ⟨(congrArg Places.ready moves).trans postponed.ready,
        (congrArg Places.dlq moves).trans postponed.dlq, ?_⟩
      exact fun time found => postponed.scored time (schedules.symm.trans found)
  | @reaped nowMs batchSize =>
      have moves := before.store.redis.places_reapScript nowMs batchSize jobId
      have schedules := before.store.redis.delayed_reapScript nowMs batchSize
      rw [if_neg (unreaped nowMs batchSize rfl)] at moves
      refine ⟨(congrArg Places.ready moves).trans postponed.ready,
        (congrArg Places.dlq moves).trans postponed.dlq, ?_⟩
      intro time found
      apply postponed.scored time
      rw [← schedules]
      exact found
  | start | failed | crashed | shutdown | ticked | registered | deleted =>
      exact ⟨postponed.ready, postponed.dlq, postponed.scored⟩

/-- Nobody comes to hold the job in a step, and whoever holds it keeps the
promise. -/
theorem promised_of_step (postponed : Postponed before jobId runAt)
    (invariant : QueueInvariant before) (promising : before.Promising)
    (yields : Yields before action)
    (taken : WebhookDelivery.step deployment before action = some after)
    {pid : Pid} (held : (after.claim pid).holds? = some jobId) :
    ∃ time, after.promise pid (after.claim pid) = some (jobId, time) ∧
      runAt ≤ time := by
  by_cases performs : action.performer? = some pid
  · cases steps_of_step taken with
    | @performed _ actor choice process call next rescue resumed found running
        connected resumes =>
        have same := resumes.performer?.1.symm.trans performs
        cases same
        have pending := State.pending?_of_running found running
        rw [State.claim_of_found (State.perform_self ..)] at held
        have now : (resumed (exec deployment choice call before.store).1).claim
            = process.claim.after call
              (exec deployment choice call before.store).1 := by
          rcases QueueInvariant.claim_of_resumes resumes
            (exec deployment choice call before.store).1 with same | none
          · exact same
          · rw [none] at held
            cases held
        rw [now] at held
        rcases postponed.call_cases invariant promising yields performs
            pending choice with unrelated | rfl | ⟨time, rfl, _⟩
        · rcases Claim.after_of_target unrelated process.claim with
            same | other
          · rw [same, ← State.claim_of_found found] at held
            obtain ⟨time, rfl, _⟩ :=
              postponed.call_of_held promising pending held
            exact absurd rfl unrelated
          · exact absurd (Claim.job?_of_holds? held) other
        · cases held
        · cases held
    | _ => cases performs
  · rcases claim_of_unperformed taken performs with same | none
    · rw [same] at held ⊢
      obtain ⟨time, promised, later⟩ := postponed.promised pid held
      refine ⟨time, ?_, later⟩
      rw [State.promise, own_of_other taken performs]
      exact promised
    · rw [none] at held
      cases held

/-- A job whose time has not come stays postponed. -/
theorem step (postponed : Postponed before jobId runAt)
    (invariant : QueueInvariant before) (promising : before.Promising)
    (yields : Yields before action)
    (taken : WebhookDelivery.step deployment before action = some after)
    (unpromoted : ∀ nowMs batchSize, action = .promote nowMs batchSize →
      nowMs < runAt)
    (unreaped : ∀ nowMs batchSize, action = .reap nowMs batchSize →
      jobId ∉ before.store.redis.leases.rangeByScore nowMs batchSize) :
    Postponed after jobId runAt := by
  obtain ⟨ready, dlq, scored⟩ := postponed.kept_of_step invariant promising
    yields taken unpromoted unreaped
  exact ⟨issued_of_step taken postponed.issued, ready, dlq, scored,
    fun _ => postponed.promised_of_step invariant promising yields taken⟩

/-- Only the worker whose claim is in force writes a time for a job, and
nobody else has the job then. -/
theorem written (invariant : QueueInvariant before)
    (yields : Yields before action)
    (taken : WebhookDelivery.step deployment before action = some after)
    {pid : Pid} {choice : Choice} {call : Call}
    (performs : action.performer? = some pid)
    (pending : before.pending? pid = some call)
    (store : after.store = (exec deployment choice call before.store).2)
    (history : after.history = ⟨pid, call, (exec deployment choice call
      before.store).1⟩ :: before.history)
    (postpones : call.postpones? (exec deployment choice call
      before.store).1 = some (jobId, runAt)) :
    Postponed after jobId runAt := by
  have writes : ∃ update, call = .updateState update ∧ update.id = jobId ∧
      update.runAt = some runAt := by
    unfold Call.postpones? at postpones
    split at postpones
    next update job same =>
      rw [Option.map_eq_some_iff] at postpones
      obtain ⟨_, waits, ⟨⟩⟩ := postpones
      exact ⟨update, rfl, rfl, waits⟩
    · cases postpones
  obtain ⟨update, rfl, rfl, waits⟩ := writes
  have reserved : before.claim pid = .reserved update.id := by
    rcases invariant.permits pending with reserved | superseded
    · exact reserved
    · have timeless : update.runAt = none := yields (.updateState update)
        (overruledCall?_of_superseded performs pending superseded)
      rw [waits] at timeless
      cases timeless
  have custody := invariant.custody update.id
  obtain ⟨held, inflight, _⟩ := custody.fits_of reserved rfl
  have once := custody.sound.once
  have places : after.places update.id = before.places update.id := by
    unfold State.places
    rw [store]
    exact exec_places deployment choice _ before.store update.id
  have alone : (before.places update.id).ready = 0 ∧
      (before.places update.id).dlq = 0 ∧
        (before.places update.id).delayed = 0 := by
    unfold Places.copies at once
    omega
  constructor
  · exact issued_of_step taken (custody.issued_of_claim held)
  · rw [places]
    exact alone.1
  · rw [places]
    exact alone.2.1
  · intro time scored
    have present := (Redis.delayed_eq_one_iff _ update.id).mpr
      (Option.isSome_of_mem scored)
    have absent := congrArg Places.delayed places
    unfold State.places at absent alone
    omega
  · intro other holds
    by_cases same : action.performer? = some other
    · rw [performs] at same
      cases same
      refine ⟨runAt, ?_, le_rfl⟩
      rw [State.promise, Claim.job?_of_holds? holds, own_cons history,
        if_pos rfl]
      exact postpones
    · rcases claim_of_unperformed taken same with kept | none
      · rw [kept] at holds
        exact absurd (custody.exclusive held holds ▸ performs) same
      · rw [none] at holds
        cases holds

end Postponed

/-- A job whose time has not come is postponed. -/
structure WaitInvariant (timed : Timed) : Prop where
  queue : QueueInvariant timed.state
  promising : timed.state.Promising
  sending : timed.state.SendsUnderClaim
  postponed : ∀ {jobId runAt}, runAt ∈ timed.state.waits jobId →
    timed.clock < runAt → Postponed timed.state jobId runAt

namespace WaitInvariant

theorem initial (clock : Int) : WaitInvariant ⟨State.initial, clock⟩ where
  queue := .initial
  promising := .initial
  sending := .initial
  postponed waits := by cases waits

private theorem postponed_of_step {before after : Timed}
    (invariant : WaitInvariant before) (due : ReapsDue before action)
    (yields : Yields before.state action)
    (taken : clockedStep deployment before action = some after)
    {jobId : JobId} {runAt : Int} (waits : runAt ∈ after.state.waits jobId)
    (early : after.clock < runAt) : Postponed after.state jobId runAt := by
  obtain ⟨steps, later, promoted, reaped⟩ := clockedStep_cases taken
  have stays : runAt ∈ before.state.waits jobId →
      Postponed after.state jobId runAt := by
    intro waited
    refine (invariant.postponed waited (later.trans_lt early)).step
      invariant.queue invariant.promising yields steps ?_ ?_
    · exact fun nowMs batchSize same =>
        (promoted nowMs batchSize same).trans_lt early
    · rintro nowMs batchSize rfl expired
      have passed := due jobId expired runAt waited
      have reading := reaped nowMs batchSize rfl
      omega
  rcases history_of_step steps with ⟨same, _⟩ | ⟨same, _⟩ |
    ⟨pid, choice, call, performs, pending, store, history⟩
  · apply stays
    rw [State.waits, ← same]
    exact waits
  · apply stays
    rw [State.waits, ← same]
    exact waits
  · rw [State.waits, history] at waits
    rcases mem_waitsOf_cons waits with written | waited
    · exact .written invariant.queue yields steps performs pending store
        history written
    · exact stays waited

theorem step {before after : Timed} (invariant : WaitInvariant before)
    (due : ReapsDue before action) (yields : Yields before.state action)
    (taken : clockedStep deployment before action = some after) :
    WaitInvariant after where
  queue := invariant.queue.step (unharmed_of_yields yields)
    (clockedStep_cases taken).1
  promising := State.Promising.step invariant.promising
    (clockedStep_cases taken).1
  sending := State.SendsUnderClaim.step invariant.sending
    (clockedStep_cases taken).1
  postponed := invariant.postponed_of_step due yields taken

/-- Whoever sends a request has the job in its hands, and has not put it
off. -/
theorem awaited {timed : Timed} (invariant : WaitInvariant timed)
    (yields : Yields timed.state action) : Awaited timed action := by
  intro request starts runAt waits
  by_contra early
  have postponed := invariant.postponed waits (by omega)
  obtain ⟨pid, performs, pending⟩ :=
    performs_of_startedRequest? (Option.mem_def.mp starts)
  rcases invariant.sending.works pending with reserved | superseded
  · have held : (timed.state.claim pid).holds? = some request.jobId := by
      rw [reserved]
      rfl
    obtain ⟨_, moves, _⟩ :=
      postponed.call_of_held invariant.promising pending held
    cases moves
  · exact yields (.fetch request)
      (overruledCall?_of_superseded performs pending superseded)

end WaitInvariant

/-- In a run on one clock in which the reaper returns no job whose time has
not come, and workers leave a job alone that the reaper has taken from them,
no delivery starts before the time that `process` has written for it. -/
theorem waits_respected (deployment : Deployment) (clock : Int)
    (actions : List Action)
    (careful : ∀ transition ∈
      transitions (clockedStep deployment) ⟨State.initial, clock⟩ actions,
        ReapsDue transition.before transition.action ∧
          Yields transition.before.state transition.action) :
    ∀ transition ∈
      transitions (clockedStep deployment) ⟨State.initial, clock⟩ actions,
        Awaited transition.before transition.action := by
  intro transition member
  have before := (@invariant_of_transitions _ _ (clockedStep deployment)
    WaitInvariant (fun timed action => ReapsDue timed action ∧
      Yields timed.state action)
    (fun _ _ _ invariant permitted taken =>
      invariant.step permitted.1 permitted.2 taken)
    _ (.initial clock) _ careful transition member).1
  exact before.awaited (careful transition member).2

/-- Worker 1 claims job 2 at 0 and writes at 59800 that the next try is at
60300, but stops before it moves the job.  Worker 2 claims the job once the
reaper has met the lease, and is about to send. -/
def crashedRetry (reapedAt : Int) : List Action :=
  enqueueOne ++ deliverOnce 1 500 5 ++
    [.call 1 { dice := Fin.ofNat _ (2 ^ 52) }, .call 1 { now := 59800 },
      .call 1 {}, .crash 1, .reap reapedAt 100, .start 2 .worker] ++
    List.replicate 14 (.call 2 { now := reapedAt })

theorem waits_respected_crashedRetry :
    ((run (clockedStep {}) ⟨State.initial, 0⟩ (crashedRetry 60300)).map
        fun timed => ((startedRequest? timed.state (.call 2 {})).map
          DeliveryRequest.jobId, timed.state.waits 2, timed.clock)) =
      some (some 2, [60300], 60300) ∧
    ∀ transition ∈ transitions (clockedStep {}) ⟨State.initial, 0⟩
        (crashedRetry 60300 ++ [.call 2 {}]),
      Awaited transition.before transition.action :=
  ⟨by decide +kernel, waits_respected {} 0 _ (by decide +kernel)⟩

/-- A lease that ends before the time of the next try lets the reaper send the
job out early. -/
theorem crashed_retry_early :
    ¬∀ transition ∈ transitions (clockedStep {}) ⟨State.initial, 0⟩
        (crashedRetry 60000 ++ [.call 2 {}]),
      Awaited transition.before transition.action := by
  decide +kernel

end WebhookDelivery
