import WebhookDelivery.Fencing
import WebhookDelivery.TraceInvariant
import WebhookDelivery.RowSteps

/-!
# Scheduled jobs are never early

`process` does not look at `runAt`.  Before that time the id of a job is
nowhere but in `delayed`, with `runAt` for its score, so that no worker can
have popped it.
-/

namespace WebhookDelivery

open Concurrency

/-! ## Runs on one clock -/

/-- A state and the latest reading of the clock that the API, the workers and
the schedulers share. -/
structure Timed where
  state : State
  clock : Int

/-- The latest reading after an action; `none` when the action would turn the
clock back.  A scheduler promotes by a reading it has taken before, perhaps
long ago. -/
def Timed.clock? (timed : Timed) : Action → Option Int
  | .call pid choice =>
      if timed.state.pending? pid = some .now then
        if timed.clock ≤ choice.now then some choice.now else none
      else some timed.clock
  | .promote nowMs _ => some (max timed.clock nowMs)
  | _ => some timed.clock

/-- The steps of the system on one clock. -/
def timedStep (deployment : Deployment) (timed : Timed) (action : Action) :
    Option Timed :=
  match timed.clock? action, step deployment timed.state action with
  | some clock, some state => some ⟨state, clock⟩
  | _, _ => none

variable {deployment : Deployment}

theorem timedStep_cases {before after : Timed} {action : Action}
    (taken : timedStep deployment before action = some after) :
    step deployment before.state action = some after.state ∧
      before.clock? action = some after.clock := by
  unfold timedStep at taken
  split at taken
  next clock state ticks steps =>
    cases taken
    exact ⟨steps, ticks⟩
  · cases taken

/-- The clock does not go back. -/
theorem clock_mono {timed : Timed} {action : Action} {later : Int}
    (ticks : timed.clock? action = some later) : timed.clock ≤ later := by
  unfold Timed.clock? at ticks
  split at ticks
  · split at ticks
    · split at ticks
      next forwards =>
        cases ticks
        exact forwards
      · cases ticks
    · cases ticks
      exact le_rfl
  · cases ticks
    exact le_max_left _ _
  · cases ticks
    exact le_rfl

/-- No process is at a `fetch` for a job before the time that the request for
the job has asked for. -/
def NeverEarly (timed : Timed) : Prop :=
  ∀ pid input job runAt, timed.state.role? pid = some (.enqueue input) →
    input.runAt = some runAt →
    did (timed.state.own pid) Event.inserted? job →
      ∀ worker request,
        timed.state.pending? worker = some (.fetch request) →
        request.jobId = job.id → runAt ≤ timed.clock

/-! ## Jobs that nobody has claimed yet -/

/-- A job that is popped or drawn is the one the call is about. -/
theorem Event.target?_of_taken {event : Event} {jobId : JobId}
    (taken : event.popped? = some jobId ∨ event.drawn? = some jobId) :
    event.call.target? event.outcome = some jobId := by
  rcases taken with popped | drawn
  · unfold Event.popped? at popped
    split at popped
    · exact popped
    · cases popped
  · unfold Event.drawn? at drawn
    split at drawn
    · exact drawn
    · cases drawn

/-- The id is nowhere but perhaps in `delayed`, under an accepted score, and
nobody has ever taken it up. -/
structure Dormant (state : State) (jobId : JobId) (score : Int → Prop) :
    Prop where
  ready : (state.places jobId).ready = 0
  inflight : (state.places jobId).inflight = 0
  leases : (state.places jobId).leases = 0
  dlq : (state.places jobId).dlq = 0
  scored : ∀ time, state.store.redis.delayed.score? jobId = some time →
    score time
  unpopped : ¬did state.history Event.popped? jobId
  undrawn : ¬did state.history Event.drawn? jobId

namespace Dormant

variable {deployment : Deployment} {before after : State} {action : Action}
  {jobId : JobId} {score : Int → Prop}

theorem mono {wider : Int → Prop} (dormant : Dormant before jobId score)
    (widen : ∀ time, score time → wider time) :
    Dormant before jobId wider where
  __ := dormant
  scored time found := widen time (dormant.scored time found)

/-- A worker releases and claims only jobs that it has taken up. -/
private theorem other_of_claimed (dormant : Dormant before jobId score)
    (trace : TraceInvariant False before) {pid : Pid} {call : Call}
    (pending : before.pending? pid = some call) {id : JobId}
    (claims : call.releases? = some id ∨
      ∃ expiry, call = .zaddLease id expiry) : id ≠ jobId := by
  obtain ⟨role, _, allows⟩ := trace.allows pending
  cases role with
  | worker =>
      have popped : did (before.own pid) Event.popped? id := by
        rcases claims with releases | ⟨expiry, rfl⟩
        · cases call <;> cases releases <;> exact allows
        · exact allows
      rintro rfl
      exact dormant.unpopped (did_history_iff.mpr ⟨pid, popped⟩)
  | enqueue input =>
      rcases claims with releases | ⟨expiry, rfl⟩
      · cases call <;> cases releases <;> exact allows.2.elim
      · exact allows.2.elim
  | replay limit =>
      rcases claims with releases | ⟨expiry, rfl⟩
      · cases call <;> cases releases <;> exact allows.elim
      · exact allows.elim

/-- What a process may do while a job is dormant: insert it, put it in
`delayed`, or something else. -/
private theorem call_cases (dormant : Dormant before jobId score)
    (trace : TraceInvariant False before) {pid : Pid} {call : Call}
    (pending : before.pending? pid = some call)
    (unpushed : call ≠ .push jobId) (choice : Choice) :
    call.target? (exec deployment choice call before.store).1 ≠ some jobId ∨
      (∃ input, call = .insertJob input) ∨
        ∃ time, call = .pushDelayed jobId time := by
  refine or_iff_not_imp_left.mpr fun about => ?_
  rw [not_not] at about
  cases call with
  | insertJob input => exact .inl ⟨input, rfl⟩
  | pushDelayed id time =>
      cases about
      exact .inr ⟨time, rfl⟩
  | push id =>
      cases about
      exact absurd rfl unpushed
  | brpoplpush =>
      cases popped : before.store.redis.brpoplpush.1 with
      | none =>
          simp only [exec, popped] at about
          cases about
      | some id =>
          simp only [exec, popped] at about
          cases about
          have present := ready_of_brpoplpush popped
          have absent := dormant.ready
          unfold State.places at absent
          omega
  | popDlq =>
      cases drawn : before.store.redis.popDlq.1 with
      | none =>
          simp only [exec, drawn] at about
          cases about
      | some id =>
          simp only [exec, drawn] at about
          cases about
          have present := dlq_of_popDlq drawn
          have absent := dormant.dlq
          unfold State.places at absent
          omega
  | zaddLease id expiry =>
      cases about
      exact absurd rfl
        (dormant.other_of_claimed trace pending (.inr ⟨expiry, rfl⟩))
  | ack id | retryLater id time | deadLetter id =>
      cases about
      exact absurd rfl (dormant.other_of_claimed trace pending (.inl rfl))
  | _ => cases about

/-- A job that is put in `delayed`, or not touched, is nowhere else. -/
private theorem touches (dormant : Dormant before jobId score)
    (trace : TraceInvariant False before) {pid : Pid} {call : Call}
    (pending : before.pending? pid = some call)
    (unpushed : call ≠ .push jobId)
    (scheduled : ∀ time, call = .pushDelayed jobId time → score time)
    (choice : Choice) :
    let outcome := (exec deployment choice call before.store).1
    let places := call.moves jobId (before.places jobId) outcome
    (places.ready = 0 ∧ places.inflight = 0 ∧ places.leases = 0 ∧
        places.dlq = 0) ∧
      (∀ time, call.schedules jobId
        (before.store.redis.delayed.score? jobId) = some time →
          score time) ∧
      Event.popped? ⟨pid, call, outcome⟩ ≠ some jobId ∧
      Event.drawn? ⟨pid, call, outcome⟩ ≠ some jobId := by
  have kept : (before.places jobId).ready = 0 ∧
      (before.places jobId).inflight = 0 ∧
        (before.places jobId).leases = 0 ∧ (before.places jobId).dlq = 0 :=
    ⟨dormant.ready, dormant.inflight, dormant.leases, dormant.dlq⟩
  dsimp only
  rcases dormant.call_cases trace pending unpushed choice with
    unrelated | ⟨input, rfl⟩ | ⟨time, rfl⟩
  · rw [Call.moves_of_target unrelated, Call.schedules_of_target unrelated]
    exact ⟨kept, dormant.scored,
      fun popped => unrelated (Event.target?_of_taken (.inl popped)),
      fun drawn => unrelated (Event.target?_of_taken (.inr drawn))⟩
  · exact ⟨kept, dormant.scored, (fun done => by cases done),
      (fun done => by cases done)⟩
  · refine ⟨?_, ?_, (fun done => by cases done), (fun done => by cases done)⟩
    · simp only [Call.moves, if_true]
      exact kept
    · simp only [Call.schedules, if_true]
      rintro _ ⟨⟩
      exact scheduled time rfl

/-- A job stays dormant until it is pushed or promoted. -/
theorem step (dormant : Dormant before jobId score)
    (trace : TraceInvariant False before)
    (taken : WebhookDelivery.step deployment before action = some after)
    (unpushed : ∀ pid, before.pending? pid ≠ some (.push jobId))
    (scheduled : ∀ pid time,
      before.pending? pid = some (.pushDelayed jobId time) → score time)
    (unpromoted : ∀ nowMs batchSize, action = .promote nowMs batchSize →
      ∀ time, score time → nowMs < time) :
    Dormant after jobId score := by
  cases steps_of_step taken with
  | @performed _ pid choice process call next rescue resumed found running =>
      have pending := State.pending?_of_running found running
      obtain ⟨⟨ready, inflight, leases, dlq⟩, scored, unpopped, undrawn⟩ :=
        dormant.touches trace pending
          (fun same => unpushed pid (same ▸ pending))
          (fun time same => scheduled pid time (same ▸ pending)) choice
      have moves := exec_places deployment choice call before.store jobId
      have schedules := exec_score deployment choice call before.store jobId
      constructor
      · exact (congrArg Places.ready moves).trans ready
      · exact (congrArg Places.inflight moves).trans inflight
      · exact (congrArg Places.leases moves).trans leases
      · exact (congrArg Places.dlq moves).trans dlq
      · exact fun time found => scored time (schedules.symm.trans found)
      · exact fun popped => ((did_cons ..).mp popped).elim unpopped
          dormant.unpopped
      · exact fun drawn => ((did_cons ..).mp drawn).elim undrawn
          dormant.undrawn
  | @promoted nowMs batchSize =>
      have waits : jobId ∉
          before.store.redis.delayed.rangeByScore nowMs batchSize := by
        intro due
        obtain ⟨time, found, reached⟩ :=
          SortedSets.SortedSet.score?_of_mem_rangeByScore due
        have later := unpromoted nowMs batchSize rfl time
          (dormant.scored time found)
        omega
      have moves := before.store.redis.places_promoteScript nowMs batchSize
        jobId
      have schedules := before.store.redis.score_promoteScript nowMs batchSize
        jobId
      rw [if_neg waits] at moves schedules
      constructor
      · exact (congrArg Places.ready moves).trans dormant.ready
      · exact (congrArg Places.inflight moves).trans dormant.inflight
      · exact (congrArg Places.leases moves).trans dormant.leases
      · exact (congrArg Places.dlq moves).trans dormant.dlq
      · exact fun time found => dormant.scored time (schedules.symm.trans found)
      · exact dormant.unpopped
      · exact dormant.undrawn
  | @reaped nowMs batchSize =>
      have unleased : jobId ∉
          before.store.redis.leases.rangeByScore nowMs batchSize := by
        intro expired
        have leased := Redis.leased_of_mem_range expired
        have none := dormant.leases
        unfold State.places at none
        omega
      have moves := before.store.redis.places_reapScript nowMs batchSize jobId
      have schedules := before.store.redis.delayed_reapScript nowMs batchSize
      rw [if_neg unleased] at moves
      constructor
      · exact (congrArg Places.ready moves).trans dormant.ready
      · exact (congrArg Places.inflight moves).trans dormant.inflight
      · exact (congrArg Places.leases moves).trans dormant.leases
      · exact (congrArg Places.dlq moves).trans dormant.dlq
      · intro time found
        apply dormant.scored time
        rw [← schedules]
        exact found
      · exact dormant.unpopped
      · exact dormant.undrawn
  | start | failed | crashed | shutdown | ticked | registered | deleted =>
      exact ⟨dormant.ready, dormant.inflight, dormant.leases, dormant.dlq,
        dormant.scored, dormant.unpopped, dormant.undrawn⟩

end Dormant

/-! ## The invariant -/

/-- Readings are not ahead of the clock, jobs are inserted under ids of their
own with the time asked for, and a job is dormant before that time, as is an id
that has not been issued. -/
structure ScheduleInvariant (timed : Timed) : Prop where
  trace : TraceInvariant False timed.state
  told : ∀ {now}, did timed.state.history Event.clock? now →
    now ≤ timed.clock
  issued : ∀ {job}, did timed.state.history Event.inserted? job →
    job.id ∈ timed.state.store.db.issued
  unique : ∀ {job other}, did timed.state.history Event.inserted? job →
    did timed.state.history Event.inserted? other → job.id = other.id →
      job = other
  asked : ∀ {pid input job runAt},
    timed.state.role? pid = some (.enqueue input) →
    input.runAt = some runAt →
    did (timed.state.own pid) Event.inserted? job → job.runAt = runAt
  waits : ∀ {job}, did timed.state.history Event.inserted? job →
    timed.clock < job.runAt →
      Dormant timed.state job.id (fun time => time = job.runAt)
  fresh : ∀ {jobId}, jobId ∉ timed.state.store.db.issued →
    Dormant timed.state jobId (fun _ => False)

namespace ScheduleInvariant

variable {before after : Timed} {action : Action}

theorem initial (clock : Int) :
    ScheduleInvariant ⟨State.initial, clock⟩ where
  trace := .initial
  told done := (did_nil _ _ done).elim
  issued done := (did_nil _ _ done).elim
  unique done := (did_nil _ _ done).elim
  asked _ _ done := (did_nil _ _ done).elim
  waits done := (did_nil _ _ done).elim
  fresh _ := ⟨rfl, rfl, rfl, rfl, nofun, did_nil _ _, did_nil _ _⟩

theorem neverEarly {timed : Timed} (invariant : ScheduleInvariant timed) :
    NeverEarly timed := by
  intro pid input job runAt known asks inserted worker request pending about
  have agreed := invariant.asked known asks inserted
  by_contra early
  have dormant := invariant.waits (did_history_iff.mpr ⟨pid, inserted⟩)
    (by omega)
  obtain ⟨role, _, allows⟩ := invariant.trace.allows pending
  cases role with
  | worker =>
      refine dormant.unpopped (did_history_iff.mpr ⟨worker, ?_⟩)
      rw [← about]
      exact allows
  | enqueue input => exact allows.2
  | replay limit => exact allows

/-- A job is pushed once its time has come, or after it has been drawn from
`dlq`. -/
private theorem pushed (invariant : ScheduleInvariant before) {pid : Pid}
    {jobId : JobId}
    (pending : before.state.pending? pid = some (.push jobId)) :
    (∃ job, did before.state.history Event.inserted? job ∧ job.id = jobId ∧
        job.runAt ≤ before.clock) ∨
      did before.state.history Event.drawn? jobId := by
  obtain ⟨role, _, allows⟩ := invariant.trace.allows pending
  cases role with
  | enqueue input =>
      obtain ⟨_, job, now, inserted, same, told, due⟩ := allows
      have reading := invariant.told (did_history_iff.mpr ⟨pid, told⟩)
      exact .inl ⟨job, did_history_iff.mpr ⟨pid, inserted⟩, same,
        due.trans reading⟩
  | worker => cases allows
  | replay limit => exact .inr (did_history_iff.mpr ⟨pid, allows⟩)

/-- A job is put in `delayed` under its own time. -/
private theorem pushedDelayed (invariant : ScheduleInvariant before)
    {pid : Pid} {jobId : JobId} {time : Int}
    (pending : before.state.pending? pid =
      some (.pushDelayed jobId time)) :
    ∃ job, did before.state.history Event.inserted? job ∧ job.id = jobId ∧
      job.runAt = time := by
  obtain ⟨role, _, allows⟩ := invariant.trace.allows pending
  cases role with
  | enqueue input =>
      obtain ⟨_, job, inserted, same, scheduled⟩ := allows
      exact ⟨job, did_history_iff.mpr ⟨pid, inserted⟩, same, scheduled⟩
  | worker => cases allows
  | replay limit => cases allows

private theorem told_of_step (invariant : ScheduleInvariant before)
    (taken : timedStep deployment before action = some after) {now : Int}
    (told : did after.state.history Event.clock? now) :
    now ≤ after.clock := by
  obtain ⟨steps, ticks⟩ := timedStep_cases taken
  have later := clock_mono ticks
  have earlier : did before.state.history Event.clock? now →
      now ≤ after.clock := fun told => (invariant.told told).trans later
  generalize reached : after.state = state at steps told
  cases steps_of_step steps with
  | @performed _ pid choice process call next rescue resumed found running
      connected resumes =>
      rcases (did_cons ..).mp told with reads | told
      · cases call with
        | now =>
            cases reads
            cases resumes with
            | replied =>
                have pending := State.pending?_of_running found running
                simp only [Timed.clock?, pending, if_true] at ticks
                split at ticks
                · exact (Option.some.inj ticks).le
                · cases ticks
            | unanswered onStore => cases onStore
        | _ => cases reads
      · exact earlier told
  | start | failed | crashed | shutdown | promoted | reaped | ticked
  | registered | deleted => exact earlier told

private theorem issued_of_step (invariant : ScheduleInvariant before)
    (taken : timedStep deployment before action = some after) {job : Job}
    (inserted : did after.state.history Event.inserted? job) :
    job.id ∈ after.state.store.db.issued := by
  obtain ⟨steps, _⟩ := timedStep_cases taken
  obtain ⟨pid, inserted⟩ := did_history_iff.mp inserted
  rcases did_of_step steps inserted with
    earlier | ⟨choice, call, _, _, store, inserts⟩
  · exact WebhookDelivery.issued_of_step steps
      (invariant.issued (did_history_iff.mpr ⟨pid, earlier⟩))
  · obtain ⟨_, _, _, issued, _⟩ := Event.inserted?_exec inserts
    rw [store]
    exact issued

/-- A job that has been inserted after the step was inserted before it, or its
id had not been issued. -/
private theorem inserted_of_step
    (taken : timedStep deployment before action = some after) {job : Job}
    (inserted : did after.state.history Event.inserted? job) :
    did before.state.history Event.inserted? job ∨
      job.id ∉ before.state.store.db.issued ∧
        ∃ event ∈ after.state.history, event.inserted? = some job ∧
          after.state.history = event :: before.state.history := by
  obtain ⟨steps, _⟩ := timedStep_cases taken
  rcases history_of_step steps with ⟨same, _⟩ | ⟨same, _⟩ |
    ⟨pid, choice, call, _, _, _, same⟩
  · exact .inl (same ▸ inserted)
  · exact .inl (same ▸ inserted)
  · rw [same] at inserted
    rcases (did_cons ..).mp inserted with inserts | earlier
    · obtain ⟨_, _, unissued, _⟩ := Event.inserted?_exec inserts
      exact .inr ⟨unissued, _, same ▸ List.mem_cons_self, inserts, same⟩
    · exact .inl earlier

private theorem unique_of_step (invariant : ScheduleInvariant before)
    (taken : timedStep deployment before action = some after)
    {job other : Job}
    (inserted : did after.state.history Event.inserted? job)
    (insertedToo : did after.state.history Event.inserted? other)
    (same : job.id = other.id) : job = other := by
  rcases inserted_of_step taken inserted with
    earlier | ⟨unissued, event, _, inserts, history⟩
  · rcases inserted_of_step taken insertedToo with
      earlierToo | ⟨unissued, _⟩
    · exact invariant.unique earlier earlierToo same
    · rw [← same] at unissued
      exact absurd (invariant.issued earlier) unissued
  · rw [history] at insertedToo
    rcases (did_cons ..).mp insertedToo with insertsToo | earlierToo
    · rw [inserts] at insertsToo
      exact Option.some.inj insertsToo
    · rw [same] at unissued
      exact absurd (invariant.issued earlierToo) unissued

private theorem asked_of_step (invariant : ScheduleInvariant before)
    (taken : timedStep deployment before action = some after) {pid : Pid}
    {input : EnqueueInput} {job : Job} {runAt : Int}
    (known : after.state.role? pid = some (.enqueue input))
    (asks : input.runAt = some runAt)
    (inserted : did (after.state.own pid) Event.inserted? job) :
    job.runAt = runAt := by
  obtain ⟨steps, _⟩ := timedStep_cases taken
  have same : ∀ {role}, before.state.role? pid = some role →
      role = .enqueue input := by
    intro role was
    rw [role_of_step steps was] at known
    exact Option.some.inj known
  rcases did_of_step steps inserted with
    earlier | ⟨choice, call, _, pending, _, inserts⟩
  · obtain ⟨role, was⟩ := invariant.trace.role_of_did earlier
    rw [same was] at was
    exact invariant.asked was asks earlier
  · obtain ⟨new, rfl, _, _, _, _, _, row⟩ := Event.inserted?_exec inserts
    obtain ⟨role, was, allows⟩ := invariant.trace.allows pending
    rw [same was] at allows
    obtain ⟨_, rfl, _⟩ := allows
    rw [row]
    simp [JobRow.toJob, JobInput.newRow, asks]

private theorem fresh_of_step (invariant : ScheduleInvariant before)
    (taken : timedStep deployment before action = some after) {jobId : JobId}
    (unissued : jobId ∉ before.state.store.db.issued) :
    Dormant after.state jobId (fun _ => False) := by
  obtain ⟨steps, _⟩ := timedStep_cases taken
  have dormant := invariant.fresh unissued
  refine dormant.step invariant.trace steps ?_ ?_ (fun _ _ _ _ => nofun)
  · intro pid pending
    rcases invariant.pushed pending with ⟨job, inserted, rfl, _⟩ | drawn
    · exact unissued (invariant.issued inserted)
    · exact dormant.undrawn drawn
  · intro pid time pending
    obtain ⟨job, inserted, rfl, _⟩ := invariant.pushedDelayed pending
    exact unissued (invariant.issued inserted)

private theorem waits_of_step (invariant : ScheduleInvariant before)
    (taken : timedStep deployment before action = some after) {job : Job}
    (inserted : did after.state.history Event.inserted? job)
    (early : after.clock < job.runAt) :
    Dormant after.state job.id (fun time => time = job.runAt) := by
  obtain ⟨steps, ticks⟩ := timedStep_cases taken
  have later := clock_mono ticks
  rcases inserted_of_step taken inserted with
    earlier | ⟨unissued, _⟩
  · have dormant := invariant.waits earlier (by omega)
    refine dormant.step invariant.trace steps ?_ ?_ ?_
    · intro pid pending
      rcases invariant.pushed pending with ⟨other, was, same, due⟩ | drawn
      · rw [invariant.unique was earlier same] at due
        omega
      · exact dormant.undrawn drawn
    · intro pid time pending
      obtain ⟨other, was, same, scheduled⟩ := invariant.pushedDelayed pending
      rw [← scheduled, invariant.unique was earlier same]
    · rintro nowMs batchSize rfl time rfl
      have reading : max before.clock nowMs = after.clock :=
        Option.some.inj ticks
      omega
  · exact (invariant.fresh_of_step taken unissued).mono fun _ => False.elim

theorem step (invariant : ScheduleInvariant before)
    (taken : timedStep deployment before action = some after) :
    ScheduleInvariant after where
  trace := invariant.trace.step False.elim (timedStep_cases taken).1
  told := invariant.told_of_step taken
  issued := invariant.issued_of_step taken
  unique := invariant.unique_of_step taken
  asked := invariant.asked_of_step taken
  waits := invariant.waits_of_step taken
  fresh unissued := invariant.fresh_of_step taken fun known =>
    unissued (WebhookDelivery.issued_of_step (timedStep_cases taken).1 known)

end ScheduleInvariant

/-- In every run on one clock, whatever fails and whoever promotes, no delivery
of a scheduled job starts before its time. -/
theorem scheduled_never_early (deployment : Deployment) (clock : Int)
    (actions : List Action) :
    ∀ transition ∈
      transitions (timedStep deployment) ⟨State.initial, clock⟩ actions,
        NeverEarly transition.after := by
  intro transition member
  obtain ⟨_, after⟩ := @invariant_of_transitions _ _ (timedStep deployment)
    ScheduleInvariant (fun _ _ => True)
    (fun _ _ _ invariant _ taken => invariant.step taken)
    _ (.initial clock) _ (fun _ _ => trivial) transition member
  exact after.neverEarly

/-- An event due at 5000 is enqueued at 1000, not promoted at 4999, promoted at
5000 and delivered at 6000. -/
def dueAtFive : List Action :=
  [.registerWebhook exampleWebhook,
    .start 0 (.enqueue { exampleEvent with runAt := some 5000 }),
    .call 0 {}, .call 0 { uuid := 2 }, .call 0 { now := 1000 }, .call 0 {},
    .promote 4999 100, .promote 5000 100, .start 1 .worker] ++
    List.replicate 14 (.call 1 { now := 6000 })

theorem scheduled_never_early_dueAtFive :
    ((run (timedStep {}) ⟨State.initial, 0⟩ dueAtFive).bind
        fun timed => (timed.state.pending? 1).map
          fun call => (call.onStore, timed.clock)) = some (false, 6000) ∧
      ∀ transition ∈
        transitions (timedStep {}) ⟨State.initial, 0⟩ dueAtFive,
          NeverEarly transition.after :=
  ⟨by decide +kernel, scheduled_never_early {} 0 dueAtFive⟩

end WebhookDelivery
