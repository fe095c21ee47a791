import WebhookDelivery.Fencing

/-!
# What the reaper can recover

The reaper looks at the leases only.  A job in `inflight` can therefore be
recovered exactly when it has a lease, or when the worker that popped it goes
on to record one.
-/

namespace WebhookDelivery

open Concurrency

/-- A live worker is between the two commands of `reserve`, and its `ZADD`
will still be executed. -/
def State.AwaitsLease (state : State) (jobId : JobId) : Prop :=
  ∃ pid process, state.processes pid = some process ∧
    process.claim = .popped jobId ∧ process.severed = false ∧
      (process.pending? = some .now ∨
        ∃ expiry, process.pending? = some (.zaddLease jobId expiry))

/-- Every claimed job has a lease or is about to get one. -/
def Recoverable (state : State) : Prop :=
  ∀ jobId ∈ state.store.redis.inflight,
    (state.store.redis.leases.score? jobId).isSome ∨ state.AwaitsLease jobId

/-- Repeated runs of the reaper at one time and batch size. -/
def State.reapTimes (state : State) (nowMs : Int) (batchSize : Nat) :
    Nat → State
  | 0 => state
  | rounds + 1 => (state.reap nowMs batchSize).reapTimes nowMs batchSize rounds

/-- Once every lease has expired, finitely many runs of the reaper bring all
claimed jobs back to `ready` that are not about to get a lease. -/
def Drains (state : State) : Prop :=
  ∀ nowMs batchSize, 0 < batchSize →
    (∀ entry ∈ state.store.redis.leases.entries, entry.2 ≤ nowMs) →
      ∃ rounds, ∀ jobId ∈ state.store.redis.inflight,
        ¬state.AwaitsLease jobId →
          let drained := (state.reapTimes nowMs batchSize rounds).store.redis
          jobId ∈ drained.ready ∧ jobId ∉ drained.inflight

/-- A worker crashes or fails between the two commands of `reserve`, or loses
the reply to the first of them. -/
def DropsPopped (state : State) : Action → Prop
  | .crash pid | .fail pid _ => (state.claim pid).awaitsLease
  | .failLate pid _ _ =>
      state.pending? pid = some .brpoplpush ∧ state.store.redis.ready ≠ []
  | _ => False

instance (state : State) : DecidablePred (DropsPopped state) :=
  fun action => by
    induction action using Action.casesOn <;> unfold DropsPopped <;> infer_instance

/-- A worker that is shutting down gets a job after its `QUIT`. -/
def PopsSevered (state : State) : Action → Prop
  | .call pid _ =>
      state.pending? pid = some .brpoplpush ∧ state.store.redis.ready ≠ [] ∧
        ((state.processes pid).map Process.severed) = some true
  | _ => False

instance (state : State) : DecidablePred (PopsSevered state) :=
  fun action => by
    induction action using Action.casesOn <;> unfold PopsSevered <;> infer_instance

/-- The step keeps a worker from recording the lease on a job that it pops or
has popped. -/
def BreaksReserve (state : State) (action : Action) : Prop :=
  DropsPopped state action ∨ PopsSevered state action

instance (state : State) : DecidablePred (BreaksReserve state) :=
  fun _ => inferInstanceAs (Decidable (_ ∨ _))

namespace Redis

variable (redis : Redis) (jobId : JobId)

theorem mem_inflight_iff :
    jobId ∈ redis.inflight ↔ 0 < (redis.places jobId).inflight :=
  List.count_pos_iff.symm

theorem mem_ready_iff :
    jobId ∈ redis.ready ↔ 0 < (redis.places jobId).ready :=
  List.count_pos_iff.symm

end Redis

/-! ## The reaper's rounds -/

theorem leases_reapScript (redis : Redis) (nowMs : Int) (batchSize : Nat) :
    (redis.reapScript nowMs batchSize).2.leases =
      (redis.leases.rangeByScore nowMs batchSize).foldl
        SortedSets.SortedSet.remove redis.leases := by
  unfold Redis.reapScript
  generalize redis.leases.rangeByScore nowMs batchSize = expired
  dsimp only
  induction expired generalizing redis with
  | nil => rfl
  | cons jobId expired ih =>
      rw [List.foldl_cons, List.foldl_cons]
      exact ih (redis.reapOne jobId)

/-- The reaper has returned a job, or it can still see its lease. -/
private def Returning (places : Places) : Prop :=
  places.inflight ≤ 1 ∧
    (places.leases = 1 ∨ 0 < places.ready ∧ places.inflight = 0)

private theorem returning_reap {redis : Redis} {jobId : JobId}
    (returning : Returning (redis.places jobId)) (nowMs : Int)
    (batchSize : Nat) :
    Returning ((redis.reapScript nowMs batchSize).2.places jobId) := by
  rw [Redis.places_reapScript]
  split
  · exact ⟨by have := returning.1; simp only [Places.release]; omega,
      .inr ⟨Nat.succ_pos _, by
        have := returning.1; simp only [Places.release]; omega⟩⟩
  · exact returning

private theorem returned_of_reapTimes {jobId : JobId} {nowMs : Int}
    {batchSize : Nat} (positive : 0 < batchSize) (rounds : Nat)
    {state : State} (returning : Returning (state.places jobId))
    (expired : ∀ entry ∈ state.store.redis.leases.entries, entry.2 ≤ nowMs)
    (enough : state.store.redis.leases.entries.length ≤ rounds) :
    0 < ((state.reapTimes nowMs batchSize rounds).places jobId).ready ∧
      ((state.reapTimes nowMs batchSize rounds).places jobId).inflight =
        0 := by
  induction rounds generalizing state with
  | zero =>
      have none : state.store.redis.leases.entries = [] :=
        List.length_eq_zero_iff.mp (Nat.le_zero.mp enough)
      have unleased : (state.places jobId).leases ≠ 1 := by
        rw [State.places, ne_eq, Redis.leases_eq_one_iff]
        simp [SortedSets.SortedSet.score?, none]
      exact returning.2.resolve_left unleased
  | succ rounds ih =>
      refine ih (returning_reap returning nowMs batchSize) ?_ ?_
      · intro entry member
        apply expired entry
        rw [State.reap, Store.withRedis, leases_reapScript] at member
        exact SortedSets.SortedSet.mem_of_mem_foldl_remove member
      · show (state.store.redis.reapScript nowMs
          batchSize).2.leases.entries.length ≤ rounds
        rw [leases_reapScript]
        by_cases none : state.store.redis.leases.entries = []
        · have := SortedSets.SortedSet.length_foldl_remove_le
            state.store.redis.leases
            (state.store.redis.leases.rangeByScore nowMs batchSize)
          rw [none] at this
          exact this.trans (Nat.zero_le _)
        · have := SortedSets.SortedSet.length_foldl_remove_lt
            (SortedSets.SortedSet.rangeByScore_ne_nil positive none expired)
          omega

/-- The reaper drains every state in which it sees all claimed jobs. -/
theorem drains_of_recoverable {state : State}
    (sound : ∀ jobId, (state.places jobId).Sound)
    (recoverable : Recoverable state) : Drains state := by
  intro nowMs batchSize positive expired
  refine ⟨state.store.redis.leases.entries.length,
    fun jobId claimed unawaited => ?_⟩
  have leased := (recoverable jobId claimed).resolve_right unawaited
  have once := (sound jobId).once
  have returning : Returning (state.places jobId) := by
    refine ⟨?_, .inl ((Redis.leases_eq_one_iff _ _).mpr leased)⟩
    unfold Places.copies at once
    omega
  obtain ⟨ready, gone⟩ := returned_of_reapTimes positive _ returning expired
    (le_refl _)
  refine ⟨(Redis.mem_ready_iff _ _).mpr ready, fun stays => ?_⟩
  have := (Redis.mem_inflight_iff _ _).mp stays
  exact absurd gone (Nat.ne_of_gt this)

/-! ## Which steps the reaper survives -/

/-- A process has popped the job and is still able to record the lease;
`severed` says whether it counts after its `QUIT` as well. -/
def State.Pops (severed : Prop) (state : State) (pid : Pid) (jobId : JobId) :
    Prop :=
  ∃ process, state.processes pid = some process ∧
    process.claim = .popped jobId ∧ (process.severed = true → severed)

theorem State.awaitsLease_iff {state : State} (invariant : QueueInvariant state)
    (coherent : state.Coherent) {jobId : JobId} :
    state.AwaitsLease jobId ↔ ∃ pid, state.Pops False pid jobId := by
  constructor
  · rintro ⟨pid, process, found, popped, connected, _⟩
    exact ⟨pid, process, found, popped, by simp [connected]⟩
  · rintro ⟨pid, process, found, popped, connected⟩
    refine ⟨pid, process, found, popped, by simpa using connected, ?_⟩
    obtain ⟨call, next, rescue, running⟩ :=
      coherent pid process found (by simp [popped])
    have pending : process.pending? = some call := by
      simp [Process.pending?, running, Program.request?]
    have permits := invariant.permits
      (State.pending?_of_running found running)
    rw [State.claim_of_found found, popped] at permits
    rw [pending]
    cases call with
    | now => exact .inl rfl
    | zaddLease id expiry =>
        cases permits
        exact .inr ⟨expiry, rfl⟩
    | push id => rcases permits with same | same <;> cases same
    | updateState update => rcases permits with same | same <;> cases same
    | ack id => rcases permits with same | same <;> cases same
    | retryLater id runAtMs => rcases permits with same | same <;> cases same
    | deadLetter id => rcases permits with same | same <;> cases same
    | _ => cases permits

/-- The reaper can see the job, or a worker is about to record its lease. -/
def State.Guarded (severed : Prop) (state : State) (jobId : JobId) : Prop :=
  (state.places jobId).inflight = 0 ∨ (state.places jobId).leases = 1 ∨
    ∃ pid, state.Pops severed pid jobId

theorem recoverable_iff {state : State} (invariant : QueueInvariant state)
    (coherent : state.Coherent) :
    Recoverable state ↔ ∀ jobId, state.Guarded False jobId := by
  refine forall_congr' fun jobId => ?_
  rw [State.awaitsLease_iff invariant coherent, Redis.mem_inflight_iff,
    ← Redis.leases_eq_one_iff, State.Guarded, State.places,
    Nat.pos_iff_ne_zero, ← or_iff_not_imp_left]

section

variable {severed : Prop} {deployment : Deployment} {before after : State}
  {action : Action}

/-- A process that does not take the step still has what it popped. -/
theorem pops_of_other {pid : Pid} {jobId : JobId}
    (taken : step deployment before action = some after)
    (pops : before.Pops severed pid jobId)
    (other : action.actor? ≠ some pid) : after.Pops severed pid jobId := by
  obtain ⟨process, found, popped, connected⟩ := pops
  have distinct : ∀ {actor}, action.actor? = some actor → pid ≠ actor := by
    rintro actor acts rfl
    exact other acts
  cases steps_of_step taken with
  | start unused =>
      exact ⟨process, (before.setProcess_of_ne (distinct rfl) _).trans found,
        popped, connected⟩
  | performed found' running connected' resumes =>
      exact ⟨process, (before.perform_of_ne _ _ _ _ _
        (distinct resumes.performer?.2)).trans found, popped, connected⟩
  | failed found' running =>
      exact ⟨process, (before.setProcess_of_ne (distinct rfl) _).trans found,
        popped, connected⟩
  | crashed found' live =>
      exact ⟨process, (before.setProcess_of_ne (distinct rfl) _).trans found,
        popped, connected⟩
  | @shutdown actor process' found' =>
      by_cases own : pid = actor
      · subst own
        rw [found] at found'
        cases found'
        refine ⟨_, before.setProcess_self _ _, ?_, ?_⟩
        · rw [Process.shutdown_claim, popped]
        · unfold Process.shutdown
          split
          · exact connected
          · simp [popped, Claim.awaitsLease]
      · exact ⟨process, (before.setProcess_of_ne own _).trans found, popped,
          connected⟩
  | @reaped nowMs batchSize =>
      refine ⟨_, Option.map_eq_some_iff.mpr ⟨process, found, rfl⟩, ?_,
        connected⟩
      simp [popped, Claim.reaped]
  | promoted | ticked | registered _ | deleted =>
      exact ⟨process, found, popped, connected⟩

/-- A worker that still has what it popped is not at the end of its
program. -/
private theorem claim_of_replied {pid : Pid} {process : Process}
    {call : Call} {next : call.Reply → Async Result}
    {rescue : AppError → Async Result} {reply : call.Reply} {jobId : JobId}
    (invariant : QueueInvariant before)
    (found : before.processes pid = some process)
    (running : process.status = .running (.call call next rescue))
    (answers : call.Answers (.ok reply))
    (popped : process.claim.after call (.ok reply) = .popped jobId) :
    (process.replied deployment next rescue (.ok reply)).claim =
      .popped jobId := by
  obtain ⟨_, _, completed⟩ := invariant.disciplined.follows found running
  obtain ⟨_, _, replied⟩ := completed (.ok reply) _ ⟨rfl, answers⟩
  have follows := replied reply rfl
  rw [State.claim_of_found found, popped] at follows
  show (process.proceed deployment (next reply) _).claim = _
  rw [popped]
  cases continued : next reply with
  | pure value =>
      rw [continued] at follows
      cases follows _ (queueDiscipline.rely_refl _)
  | throw failure =>
      rw [continued] at follows
      cases follows _ (queueDiscipline.rely_refl _)
  | call call next rescue => rfl

private theorem pops_of_replied {pid : Pid} {process : Process}
    {choice : Choice} {call : Call} {next : call.Reply → Async Result}
    {rescue : AppError → Async Result} {reply : call.Reply} {jobId : JobId}
    (invariant : QueueInvariant before)
    (found : before.processes pid = some process)
    (running : process.status = .running (.call call next rescue))
    (connected : process.severed = true → severed)
    (outcome : (exec deployment choice call before.store).1 = .ok reply)
    (popped : process.claim.after call (.ok reply) = .popped jobId) :
    (before.perform deployment pid choice call
      (process.replied deployment next rescue)).Pops severed pid jobId := by
  refine ⟨_, before.perform_self _ _ _ _ _, ?_, ?_⟩
  · rw [outcome]
    refine claim_of_replied invariant found running ?_ popped
    rw [← outcome]
    exact exec_answers deployment choice call before.store
  · rw [Process.replied, Process.proceed_severed]
    exact connected

private theorem moves_keeps {call : Call} {places : Places} {jobId : JobId}
    {outcome : Except AppError call.Reply}
    (release : call.releases? ≠ some jobId) (pop : call ≠ .brpoplpush) :
    (call.moves jobId places outcome).inflight = places.inflight ∧
      (places.leases = 1 → (call.moves jobId places outcome).leases = 1) := by
  unfold Call.moves
  split <;> try split
  all_goals simp_all [Call.releases?]

/-- A process inside `reserve` makes one of two calls: it still has what it
popped after the first, and has leased it after the second. -/
private theorem guarded_of_popped {pid : Pid} {process : Process}
    {choice : Choice} {call : Call} {next : call.Reply → Async Result}
    {rescue : AppError → Async Result}
    {resumed : Except AppError call.Reply → Process}
    (invariant : QueueInvariant before)
    (found : before.processes pid = some process)
    (running : process.status = .running (.call call next rescue))
    (resumes : Resumes deployment pid choice process next rescue action
      resumed) {jobId : JobId} (guarded : before.Guarded severed jobId)
    (popped : before.claim pid = .popped jobId) :
    (before.perform deployment pid choice call resumed).Guarded severed
      jobId := by
  have custody := invariant.custody jobId
  have permits := invariant.permits
    (State.pending?_of_running found running)
  obtain ⟨_, inflight, unleased⟩ := custody.fits_of popped rfl
  have connected : process.severed = true → severed := by
    rcases guarded with absent | leased | ⟨other, pops⟩
    · omega
    · omega
    · obtain ⟨process', found', popped', connected⟩ := pops
      have same : other = pid := custody.exclusive
        (by rw [State.claim_of_found found', popped']; rfl)
        (by rw [popped]; rfl)
      subst same
      rw [found] at found'
      cases found'
      exact connected
  rw [popped] at permits
  cases call with
  | now =>
      cases resumes with
      | unanswered onStore => cases onStore
      | replied =>
          rw [State.claim_of_found found] at popped
          exact .inr (.inr ⟨pid, pops_of_replied invariant found running
            connected rfl popped⟩)
  | zaddLease id expiry =>
      cases permits
      have leased : (before.perform deployment pid choice
          (.zaddLease jobId expiry) resumed).places jobId =
            { before.places jobId with leases := 1 } :=
        (exec_places deployment choice (.zaddLease jobId expiry)
          before.store jobId).trans (if_pos rfl)
      exact .inr (.inl (congrArg Places.leases leased))
  | push id => rcases permits with same | same <;> cases same
  | updateState update => rcases permits with same | same <;> cases same
  | ack id => rcases permits with same | same <;> cases same
  | retryLater id runAtMs => rcases permits with same | same <;> cases same
  | deadLetter id => rcases permits with same | same <;> cases same
  | _ => cases permits

/-- A worker that pops the job has it afterwards, unless the reply is lost. -/
private theorem pops_of_brpoplpush {pid : Pid} {process : Process}
    {choice : Choice} {next : Call.Reply .brpoplpush → Async Result}
    {rescue : AppError → Async Result}
    {resumed : Except AppError (Call.Reply .brpoplpush) → Process}
    (invariant : QueueInvariant before)
    (undropped : ¬DropsPopped before action)
    (connects : PopsSevered before action → severed)
    (found : before.processes pid = some process)
    (running : process.status = .running (.call .brpoplpush next rescue))
    (resumes : Resumes deployment pid choice process next rescue action
      resumed) {jobId : JobId}
    (got : before.store.redis.brpoplpush.1 = some jobId) :
    (before.perform deployment pid choice .brpoplpush resumed).Pops severed
      pid jobId := by
  have waiting : before.store.redis.ready ≠ [] := by
    have := ready_of_brpoplpush got
    intro none
    simp [Redis.places, none] at this
  have pending := State.pending?_of_running found running
  cases resumes with
  | unanswered onStore => exact absurd ⟨pending, waiting⟩ undropped
  | replied =>
      have connected : process.severed = true → severed := by
        intro cut
        refine connects ⟨pending, waiting, ?_⟩
        simpa [found] using cut
      have outcome : (exec deployment choice .brpoplpush
          before.store).1 = .ok (some jobId) := congrArg Except.ok got
      exact pops_of_replied invariant found running connected outcome rfl

private theorem guarded_performed {pid : Pid} {process : Process}
    {choice : Choice} {call : Call} {next : call.Reply → Async Result}
    {rescue : AppError → Async Result}
    {resumed : Except AppError call.Reply → Process}
    (invariant : QueueInvariant before) (unharmed : Unharmed before action)
    (undropped : ¬DropsPopped before action)
    (connects : PopsSevered before action → severed)
    (guarded : ∀ jobId, before.Guarded severed jobId)
    (taken : step deployment before action =
      some (before.perform deployment pid choice call resumed))
    (found : before.processes pid = some process)
    (running : process.status = .running (.call call next rescue))
    (resumes : Resumes deployment pid choice process next rescue action
      resumed) (jobId : JobId) :
    (before.perform deployment pid choice call resumed).Guarded severed
      jobId := by
  have custody := invariant.custody jobId
  have permits := invariant.permits
    (State.pending?_of_running found running)
  have moved : (before.perform deployment pid choice call resumed).places
      jobId = call.moves jobId (before.places jobId)
        (exec deployment choice call before.store).1 :=
    exec_places deployment choice call before.store jobId
  by_cases popped : before.claim pid = .popped jobId
  · exact guarded_of_popped invariant found running resumes (guarded jobId)
      popped
  by_cases visible : (before.places jobId).inflight = 0 ∨
      (before.places jobId).leases = 1
  swap
  · have := guarded jobId
    unfold State.Guarded at this
    rw [← or_assoc] at this
    obtain ⟨other, pops⟩ := this.resolve_left visible
    refine .inr (.inr ⟨other, pops_of_other taken pops fun same => popped ?_⟩)
    rw [resumes.performer?.2] at same
    cases same
    obtain ⟨process', found', popped', _⟩ := pops
    rw [State.claim_of_found found', popped']
  by_cases release : call.releases? = some jobId
  · rcases Claim.works_of_releases permits release with reserved | superseded
    · refine .inl ?_
      obtain ⟨_, inflight, _⟩ := custody.fits_of reserved rfl
      rw [moved]
      cases call <;> cases release <;>
        simp [Call.moves, Places.release, inflight]
    · have nothing := unharmed (jobId, call) (overruledRelease?_eq_some.mpr
        ⟨pid, resumes.performer?.1, State.pending?_of_running found running,
          release, superseded⟩)
      unfold State.Guarded
      rw [moved, Call.moves_of_findsNothing custody.sound release nothing]
      exact visible.imp_right .inl
  by_cases pop : call = .brpoplpush
  · subst pop
    by_cases got : before.store.redis.brpoplpush.1 = some jobId
    · exact .inr (.inr ⟨pid, pops_of_brpoplpush invariant undropped connects
        found running resumes got⟩)
    · unfold State.Guarded
      rw [moved, Call.moves_of_target]
      · exact visible.imp_right .inl
      · cases popped : before.store.redis.brpoplpush.1 with
        | none => simp [exec, popped, Call.target?]
        | some id =>
            rw [popped] at got
            simpa [exec, popped, Call.target?] using got
  · obtain ⟨inflight, leases⟩ := @moves_keeps call (before.places jobId)
      jobId (exec deployment choice call before.store).1 release pop
    unfold State.Guarded
    rw [moved, inflight]
    exact visible.imp_right fun leased => .inl (leases leased)

/-- An action of a process that has popped nothing, or keeps what it has. -/
private theorem guarded_of_same {jobId : JobId}
    (guarded : before.Guarded severed jobId)
    (taken : step deployment before action = some after)
    (inflight : (after.places jobId).inflight =
      (before.places jobId).inflight)
    (leases : (after.places jobId).leases = (before.places jobId).leases)
    (own : ∀ pid, action.actor? = some pid → before.Pops severed pid jobId →
      after.Pops severed pid jobId) : after.Guarded severed jobId := by
  unfold State.Guarded
  rw [inflight, leases]
  refine guarded.imp_right (Or.imp_right ?_)
  rintro ⟨pid, pops⟩
  refine ⟨pid, ?_⟩
  by_cases acts : action.actor? = some pid
  · exact own pid acts pops
  · exact pops_of_other taken pops acts

/-- Every job stays recoverable in a step that does not break a `reserve`. -/
theorem guarded_step (invariant : QueueInvariant before)
    (unharmed : Unharmed before action)
    (undropped : ¬DropsPopped before action)
    (connects : PopsSevered before action → severed)
    (guarded : ∀ jobId, before.Guarded severed jobId)
    (taken : step deployment before action = some after) (jobId : JobId) :
    after.Guarded severed jobId := by
  have unpopped : ∀ {pid}, ¬(before.claim pid).awaitsLease →
      ¬before.Pops severed pid jobId := by
    rintro pid settled ⟨process, found, popped, _⟩
    rw [State.claim_of_found found, popped] at settled
    exact settled rfl
  cases steps_of_step taken with
  | start unused =>
      apply guarded_of_same (guarded jobId) taken rfl rfl
      rintro _ ⟨⟩ ⟨process, found, _⟩
      rw [unused] at found
      cases found
  | performed found running connected resumes =>
      exact guarded_performed invariant unharmed undropped connects guarded
        taken found running resumes jobId
  | failed found running =>
      apply guarded_of_same (guarded jobId) taken rfl rfl
      rintro _ ⟨⟩ pops
      exact absurd pops (unpopped undropped)
  | crashed found live =>
      apply guarded_of_same (guarded jobId) taken rfl rfl
      rintro _ ⟨⟩ pops
      exact absurd pops (unpopped undropped)
  | @promoted nowMs batchSize =>
      have places := Redis.places_promoteScript before.store.redis nowMs
        batchSize jobId
      refine guarded_of_same (guarded jobId) taken ?_ ?_ (by rintro _ ⟨⟩)
      · show ((before.store.redis.promoteScript _ _).2.places jobId).inflight
          = _
        rw [places]
        split <;> rfl
      · show ((before.store.redis.promoteScript _ _).2.places jobId).leases
          = _
        rw [places]
        split <;> rfl
  | @reaped nowMs batchSize =>
      have places : (before.reap nowMs batchSize).places jobId = _ :=
        Redis.places_reapScript before.store.redis nowMs batchSize jobId
      by_cases expired : jobId ∈
          before.store.redis.leases.rangeByScore nowMs batchSize
      · refine .inl ?_
        have once := (invariant.custody jobId).sound.once
        rw [places, if_pos expired]
        unfold Places.copies at once
        show (before.places jobId).inflight - 1 = 0
        omega
      · rw [if_neg expired] at places
        refine guarded_of_same (guarded jobId) taken ?_ ?_
          (by rintro _ ⟨⟩) <;> rw [places] <;> rfl
  | shutdown _ | ticked | registered _ | deleted =>
      exact guarded_of_same (guarded jobId) taken rfl rfl (by rintro _ ⟨⟩)

/-- A worker that gives up what it has popped leaves a job behind that nobody
can see. -/
private theorem unguarded_of_dropped {pid : Pid} {process : Process}
    (invariant : QueueInvariant before)
    (popped : (before.claim pid).awaitsLease) (none : process.claim = .none) :
    ∃ jobId, ¬(before.setProcess pid process).Guarded False jobId := by
  cases claimed : before.claim pid with
  | popped jobId =>
      have custody := invariant.custody jobId
      obtain ⟨held, inflight, unleased⟩ := custody.fits_of claimed rfl
      refine ⟨jobId, ?_⟩
      rintro (absent | leased | ⟨other, process', found, popped', _⟩)
      · exact absurd (inflight.symm.trans absent) (by decide)
      · exact absurd (unleased.symm.trans leased) (by decide)
      · by_cases same : other = pid
        · subst same
          rw [before.setProcess_self] at found
          cases found
          rw [none] at popped'
          cases popped'
        · rw [before.setProcess_of_ne same] at found
          refine same (custody.exclusive ?_ held)
          rw [State.claim_of_found found, popped']
          rfl
  | _ =>
      rw [claimed] at popped
      cases popped

/-- A job popped by a worker that cannot record the lease is left behind. -/
private theorem unguarded_of_popped {pid : Pid} {process : Process}
    {choice : Choice} {next : Call.Reply .brpoplpush → Async Result}
    {rescue : AppError → Async Result}
    {resumed : Except AppError (Call.Reply .brpoplpush) → Process}
    (invariant : QueueInvariant before)
    (found : before.processes pid = some process)
    (resumes : @Resumes deployment pid choice process .brpoplpush next rescue
      action resumed)
    (waiting : before.store.redis.ready ≠ [])
    (severed : ∀ jobId outcome, (resumed outcome).claim = .popped jobId →
      (resumed outcome).severed = true) :
    ∃ jobId,
      ¬(before.perform deployment pid choice .brpoplpush resumed).Guarded
        False jobId := by
  obtain ⟨jobId, last⟩ : ∃ jobId,
      before.store.redis.ready.getLast? = some jobId :=
    Option.isSome_iff_exists.mp (by
      simpa [List.getLast?_isSome] using waiting)
  have got : before.store.redis.brpoplpush.1 = some jobId := by
    simp [Redis.brpoplpush, last]
  have custody := invariant.custody jobId
  have ready := ready_of_brpoplpush got
  have once := custody.sound.once
  have within := custody.sound.leased
  have moved : (before.perform deployment pid choice .brpoplpush
      resumed).places jobId = Call.moves jobId (before.places jobId)
        .brpoplpush (.ok (some jobId)) := by
    rw [← got]
    exact exec_places deployment choice .brpoplpush before.store jobId
  unfold State.places Places.copies at once
  unfold State.places at within
  refine ⟨jobId, ?_⟩
  rintro (absent | leased | ⟨other, process', found', popped, connected⟩)
  · rw [moved] at absent
    simp [Call.moves] at absent
  · rw [moved] at leased
    simp only [Call.moves, if_true, State.places] at leased
    omega
  · by_cases same : other = pid
    · subst same
      rw [before.perform_self] at found'
      cases found'
      exact connected (severed jobId _ popped)
    · rw [before.perform_of_ne _ _ _ _ _ same] at found'
      refine custody.unheld_of_waiting ?_ other ?_
      · unfold State.places
        omega
      · rw [State.claim_of_found found', popped]
        rfl

/-- A step that breaks a `reserve` leaves a job behind that nobody can
see. -/
theorem unguarded_of_breaksReserve (invariant : QueueInvariant before)
    (broken : BreaksReserve before action)
    (taken : step deployment before action = some after) :
    ∃ jobId, ¬after.Guarded False jobId := by
  cases steps_of_step taken with
  | crashed found live =>
      exact unguarded_of_dropped invariant (broken.resolve_right id) rfl
  | @failed pid failure process call next rescue found running =>
      apply unguarded_of_dropped invariant (broken.resolve_right id)
      have popped : (before.claim pid).awaitsLease := broken.resolve_right id
      rw [State.claim_of_found found] at popped
      rcases Process.proceed_claim with same | none
      · rw [Process.failed, same]
        cases claimed : process.claim with
        | popped jobId => rfl
        | _ =>
            rw [claimed] at popped
            cases popped
      · exact none
  | @performed _ pid choice process call next rescue resumed found running
      connected resumes =>
      have pending := State.pending?_of_running found running
      have pops : call = .brpoplpush ∧ before.store.redis.ready ≠ [] := by
        cases resumes with
        | replied =>
            obtain ⟨pending', waiting, _⟩ := broken.resolve_left id
            rw [pending] at pending'
            exact ⟨Option.some.inj pending', waiting⟩
        | unanswered onStore =>
            obtain ⟨pending', waiting⟩ := broken.resolve_right id
            rw [pending] at pending'
            exact ⟨Option.some.inj pending', waiting⟩
      obtain ⟨rfl, waiting⟩ := pops
      apply unguarded_of_popped invariant found resumes waiting
      intro jobId outcome popped
      cases resumes with
      | replied =>
          obtain ⟨_, _, severed⟩ := broken.resolve_left id
          rw [Process.replied, Process.proceed_severed]
          simpa [found] using severed
      | unanswered onStore =>
          -- A worker that gets no answer does not know the id.
          rcases Process.proceed_claim with same | none
          · rw [Process.unanswered, same] at popped
            have := Claim.lost_settled (process.claim.after .brpoplpush
              outcome)
            rw [popped] at this
            cases this
          · rw [Process.unanswered, none] at popped
            cases popped
  | _ => rcases broken with never | never <;> cases never

end

/-- In runs where overruled releases find nothing to release, every claimed
job is recoverable in every state, and the reaper drains every state, if and
only if no step breaks a `reserve`. -/
theorem recoverable_iff_reserve_unbroken (deployment : Deployment)
    (actions : List Action)
    (unharmed : ∀ transition ∈
      transitions (step deployment) State.initial actions,
        Unharmed transition.before transition.action) :
    (∀ transition ∈ transitions (step deployment) State.initial actions,
      Recoverable transition.after ∧ Drains transition.after) ↔
      ∀ transition ∈ transitions (step deployment) State.initial actions,
        ¬BreaksReserve transition.before transition.action := by
  refine transitions_good_iff_exact
    (fun state => QueueInvariant state ∧ state.Coherent ∧
      ∀ jobId, state.Guarded False jobId)
    Unharmed (fun before action => ¬BreaksReserve before action)
    (fun _ _ after => Recoverable after ∧ Drains after) ?_ ?_ ?_ unharmed
  · rintro before action after ⟨invariant, coherent, guarded⟩ unharmed
      unbroken taken
    have invariantAfter := invariant.step unharmed taken
    have coherentAfter := coherent.step taken
    have guardedAfter :=
      guarded_step invariant unharmed (fun drops => unbroken (.inl drops))
        (fun pops => unbroken (.inr pops)) guarded taken
    have recoverable :=
      (recoverable_iff invariantAfter coherentAfter).mpr guardedAfter
    exact ⟨⟨invariantAfter, coherentAfter, guardedAfter⟩, recoverable,
      drains_of_recoverable
        (fun jobId => (invariantAfter.custody jobId).sound) recoverable⟩
  · rintro before action after ⟨invariant, coherent, guarded⟩ unharmed
      taken ⟨recoverable, _⟩ broken
    obtain ⟨jobId, unguarded⟩ :=
      unguarded_of_breaksReserve invariant broken taken
    exact unguarded ((recoverable_iff (invariant.step unharmed taken)
      (coherent.step taken)).mp recoverable jobId)
  · refine ⟨QueueInvariant.initial, fun _ _ found => (by cases found),
      fun jobId => .inl rfl⟩

/-! ## A worker that crashes between the two commands -/

/-- Worker 1 has popped job 2 and not yet recorded its lease. -/
def poppedOne : List Action :=
  enqueueOne ++ [.start 1 .worker] ++ calls 1 1

/-- A crash after the lease is recorded loses nothing; one before does. -/
theorem recoverable_iff_reserve_unbroken_poppedOne :
    (run (step {}) State.initial
        (poppedOne ++ calls 1 2 ++ [.crash 1])).isSome = true ∧
      (∀ transition ∈ transitions (step {}) State.initial
          (poppedOne ++ calls 1 2 ++ [.crash 1]),
        Recoverable transition.after ∧ Drains transition.after) ∧
      ((∀ transition ∈ transitions (step {}) State.initial
          (poppedOne ++ [.crash 1]),
        Recoverable transition.after ∧ Drains transition.after) ↔
        ∀ transition ∈ transitions (step {}) State.initial
          (poppedOne ++ [.crash 1]),
            ¬BreaksReserve transition.before transition.action) := by
  refine ⟨by decide +kernel, ?_, ?_⟩
  · exact (recoverable_iff_reserve_unbroken {}
      (poppedOne ++ calls 1 2 ++ [.crash 1]) (by decide +kernel)).mpr
        (by decide +kernel)
  · exact recoverable_iff_reserve_unbroken {} (poppedOne ++ [.crash 1])
      (by decide +kernel)

/-- After the crash of worker 1 nobody can see job 2. -/
theorem crash_in_reserve_loses_job :
    ¬∀ actions,
      ∀ transition ∈ transitions (step {}) State.initial actions,
        Recoverable transition.after := by
  intro recoverable
  have unharmed : ∀ transition ∈ transitions (step {}) State.initial
      (poppedOne ++ [.crash 1]),
        Unharmed transition.before transition.action := by
    decide +kernel
  have breaks : (run (step {}) State.initial poppedOne).map
      (fun state => decide (BreaksReserve state (.crash 1))) = some true := by
    decide +kernel
  have crashes : (run (step {}) State.initial (poppedOne ++ [.crash 1])).map
      (fun _ => ()) = some () := by
    decide +kernel
  obtain ⟨⟨before, _, after⟩, member, rfl, broken, _⟩ :=
    exists_last_transition poppedOne (.crash 1) _ _ breaks crashes
  obtain ⟨⟨invariant, _⟩, invariantAfter, coherentAfter⟩ :=
    invariant_of_transitions
      (fun state => QueueInvariant state ∧ state.Coherent)
      (fun _ _ _ held unharmed taken =>
        ⟨held.1.step unharmed taken, held.2.step taken⟩)
      ⟨QueueInvariant.initial, fun _ _ found => by cases found⟩ unharmed _
      member
  obtain ⟨jobId, unguarded⟩ := unguarded_of_breaksReserve invariant
    (of_decide_eq_true broken) (step_of_mem_transitions member)
  exact unguarded ((recoverable_iff invariantAfter coherentAfter).mp
    (recoverable _ _ member) jobId)

end WebhookDelivery
