import WebhookDelivery.Solo
import WebhookDelivery.Places

/-!
# Deferrals

An open circuit or an empty bucket makes `process` put a job off.  A deferral
moves the job from `inflight` to `delayed` and writes the time of the next try
into its row; the same statement writes `NULL` over the error of the last
delivery.
-/

namespace WebhookDelivery

open Concurrency

/-! ## What a deferral is -/

/-- A gate that puts the job off. -/
def Event.defers : Event → Bool
  | ⟨_, .checkCircuit _ _ _, .ok state⟩ => decide (state = .opened)
  | ⟨_, .take _ _ _ _ _, .ok rate⟩ => !rate.allowed
  | _ => false

/-- What the stores hold about one job, its place in the queue included. -/
structure Held where
  row : Option JobRow
  records : List AttemptRecord
  places : Places
  dueAt : Option Int

def Store.held (jobId : JobId) (store : Store) : Held where
  row := store.db.jobs jobId
  records := store.db.attemptsOf jobId
  places := store.redis.places jobId
  dueAt := store.redis.delayed.score? jobId

/-- A run of `process` in which a gate puts the job off.  The other processes
leave this job alone; to everything else, the breaker and the bucket of its
webhook included, they may do anything. -/
def Deferral (deployment : Deployment) (jobId : JobId)
    (before after : Store) : Prop :=
  ∃ (pid : Pid) (around : Surroundings Store Choice AppError),
    around.Spare (fun store held => store.held jobId = held) ∧
    around.Answer (fun _ => True) ∧
    let execution := (JobService.process deployment jobId).run deployment pid
      around before
    execution.ended = some (.ok ()) ∧
      (∃ event ∈ execution.calls, event.defers) ∧ execution.world = after

/-- One deferral after another, from `before`, the last of them from `start`;
in between the job is promoted and claimed again. -/
inductive Deferrals (deployment : Deployment) (jobId : JobId)
    (before : Store) : Store → Store → Prop
  | first {after : Store} (deferral : Deferral deployment jobId before after) :
      Deferrals deployment jobId before before after
  | next {start middle again after : Store}
      (deferrals : Deferrals deployment jobId before start middle)
      (row : again.db.jobs jobId = middle.db.jobs jobId)
      (records : again.db.attemptsOf jobId = middle.db.attemptsOf jobId)
      (deferral : Deferral deployment jobId again after) :
      Deferrals deployment jobId before again after

/-- Nothing but pacing: the row has a new time, no attempt is recorded, and
the job has moved from `inflight` to `delayed`, to be due at that time. -/
structure Paced (jobId : JobId) (row : JobRow) (before start after : Store) :
    Prop where
  row : ∃ runAt updatedAt, after.db.jobs jobId =
      some { row with state := .queued, runAt := runAt, updatedAt := updatedAt } ∧
    after.redis.delayed.score? jobId = some runAt
  records : after.db.attemptsOf jobId = before.db.attemptsOf jobId
  moved : after.redis.places jobId =
    { (start.redis.places jobId).release with delayed := 1 }

/-! ## Rules for the calls of a deferral -/

/-- The rules for the only owner of a job. -/
abbrev heldDiscipline (deployment : Deployment) (pid : Pid) (jobId : JobId) :
    Discipline Call Call.Reply AppError :=
  sequential (exec deployment) (Event.mk pid)
    (fun store held => store.held jobId = held) fun _ => True

/-- The job as a deferral leaves it. -/
def Held.deferred (held : Held) (row : JobRow) (runAt updatedAt : Int) :
    Held where
  row := some { row with
    state := .queued, lastError := none, runAt := runAt, updatedAt := updatedAt }
  records := held.records
  places := { held.places.release with delayed := 1 }
  dueAt := some runAt

namespace Pacing

variable {deployment : Deployment} {pid : Pid} {jobId : JobId}
  {held : Held} {calls : List Event} {Value : Type}
  {post : Held × List Event → Except AppError Value → Prop}

/-- A call that leaves the job alone. -/
theorem follows_spared {call : Call} {rest : call.Reply → Async Value}
    (spares : ∀ choice store,
      (exec deployment choice call store).2.held jobId = store.held jobId)
    (answers : ∀ choice store, store.held jobId = held →
      match (exec deployment choice call store).1 with
      | .ok reply => (heldDiscipline deployment pid jobId).Follows post
          (rest reply) (held, ⟨pid, call, .ok reply⟩ :: calls)
      | .error failure =>
          post (held, ⟨pid, call, .error failure⟩ :: calls)
            (.error failure)) :
    (heldDiscipline deployment pid jobId).Follows post
      ((await call).bind rest) (held, calls) := by
  refine Sequential.follows_call (fun _ _ _ _ => ⟨_, rfl⟩) ?_
  intro choice store after _ same result now sees
  have unchanged : after = held :=
    sees.symm.trans ((spares choice store).trans same)
  have answered := answers choice store same
  subst unchanged
  cases outcome : (exec deployment choice call store).1 with
  | ok reply =>
      simp only [outcome] at answered
      simp only [result, now, outcome]
      exact answered
  | error failure =>
      simp only [outcome] at answered
      simp only [result, now, outcome]
      exact answered

/-- The gates have let the job by so far. -/
def Passed (calls : List Event) : Prop :=
  ∀ event ∈ calls, event.defers = false

theorem Passed.cons {event : Event} (passed : Passed calls)
    (passes : event.defers = false) : Passed (event :: calls) := by
  intro other member
  rcases List.mem_cons.mp member with rfl | earlier
  · exact passes
  · exact passed other earlier

/-- The end of a call of `process` on a job with this row: where a gate has
put the job off, it is deferred. -/
def Ends (held : Held) (row : JobRow) (now : Held × List Event)
    (outcome : Except AppError Unit) : Prop :=
  Passed now.2 ∨ outcome ≠ .ok () ∨
    ∃ runAt updatedAt, now.1 = held.deferred row runAt updatedAt

/-- The calls that ask a gate. -/
def asks : Call → Bool
  | .checkCircuit _ _ _ | .take _ _ _ _ _ => true
  | _ => false

theorem passes_of_unasked {call : Call} (unasked : asks call = false)
    (pid : Pid) (outcome : Except AppError call.Reply) :
    (⟨pid, call, outcome⟩ : Event).defers = false := by
  cases call <;> first | rfl | cases unasked

/-- Once a program asks no gate any more, none puts the job off. -/
theorem follows_unasked {row : JobRow} {view : Held × List Event}
    {program : Async Unit}
    (unasked : program.Within fun call => asks call = false)
    (passed : Passed view.2) :
    (heldDiscipline deployment pid jobId).Follows (Ends held row) program
      view := by
  refine Discipline.Follows.of_within (fun now => Passed now.2) unasked ?_ ?_
    ?_ ?_ (fun _ _ passed => .inl passed) passed
  · rintro _ _ passed rfl
    exact passed
  · intro _ _ _ _ choice world _ _
    exact ⟨_, rfl⟩
  · exact id
  · rintro _ request outcome ⟨_, _⟩ passed unasked
      ⟨choice, world, _, _, _, _, rfl⟩
    exact passed.cons (passes_of_unasked unasked pid outcome)

theorem held_updated {update : StateUpdate} {row : JobRow} {now : Int}
    {store : Store} (own : (update.apply now row).id = jobId) :
    (store.withDb (store.db.setJob (update.apply now row))).held jobId =
      { store.held jobId with row := some (update.apply now row) } := by
  simp only [Store.held, Store.withDb, Postgres.setJob_jobs, own, if_true]
  rfl

/-- The job moves to `delayed`. -/
theorem held_retryLater (store : Store) (runAtMs : Int) :
    (store.withRedis (store.redis.retryScript jobId runAtMs)).held jobId =
      { store.held jobId with
        places := { (store.redis.places jobId).release with delayed := 1 }
        dueAt := some runAtMs } := by
  have moved := store.redis.places_retryScript jobId jobId runAtMs
  have due : (store.redis.retryScript jobId runAtMs).delayed.score? jobId =
      some runAtMs := by
    simp [Redis.retryScript, Redis.pushDelayed]
  rw [if_pos rfl] at moved
  simp only [Store.held, Store.withRedis, moved, due]

theorem retryLater_follows (runAtMs : Int)
    {post : Held × List Event → Except AppError Unit → Prop}
    (ends : ∀ calls, post ({ held with
      places := { held.places.release with delayed := 1 }
      dueAt := some runAtMs }, calls) (.ok ())) :
    (heldDiscipline deployment pid jobId).Follows post
      (Queue.retryLater jobId runAtMs) (held, calls) := by
  have whole : (await (.retryLater jobId runAtMs)).bind Program.pure =
      Queue.retryLater jobId runAtMs := rfl
  rw [← whole]
  refine Sequential.follows_call (fun _ _ _ _ => ⟨_, rfl⟩) ?_
  intro choice store after _ same result now sees
  have view : after = { held with
      places := { held.places.release with delayed := 1 }
      dueAt := some runAtMs } := by
    change store.held jobId = held at same
    rw [← sees, ← same]
    exact held_retryLater store runAtMs
  subst view
  exact Sequential.follows_pure (ends _)

/-- The row and the queue after a gate has put the job off. -/
theorem deferUntil_follows {job : Job} {row : JobRow} {runAtMs : Int}
    (own : job.id = jobId) (found : held.row = some row) :
    (heldDiscipline deployment pid jobId).Follows (Ends held row)
      (JobService.deferUntil jobId job runAtMs) (held, calls) := by
  refine Sequential.follows_call (fun _ _ _ _ => ⟨_, rfl⟩) ?_
  intro choice store after _ same result now sees
  change store.held jobId = held at same
  have stored : store.db.jobs job.id = some row := by
    rw [own, ← found, ← same]
    rfl
  rcases store.db.updateState_cases choice.now
      { id := job.id, state := .queued, runAt := some runAtMs } with
    ⟨absent, _⟩ | ⟨other, there, ⟨failure, refused⟩ | ⟨within, written⟩⟩
  · cases stored.symm.trans absent
  · simp only [result, now, exec, refused]
    exact .inr (.inl fun ended => by cases ended)
  · cases stored.symm.trans there
    have id : row.id = jobId := (store.db.keyed stored).trans own
    have view : after = { held with
        row := some (StateUpdate.apply
          { id := job.id, state := .queued, runAt := some runAtMs } choice.now
            row) } := by
      rw [← sees, ← same]
      simp only [result, exec, written]
      exact held_updated id
    subst view
    simp only [result, now, exec, written]
    exact retryLater_follows runAtMs fun _ =>
      .inr (.inr ⟨runAtMs, choice.now, rfl⟩)

/-! ## What is not asked after the gates -/

theorem unasked_of_delivers {id : JobId} {call : Call}
    (delivers : call.delivers id) : asks call = false := by
  cases call <;> first | rfl | cases delivers

theorem getById_unasked (id : WebhookId) :
    (WebhookService.getById id).Within fun call => asks call = false :=
  .bind (.perform rfl) fun webhook => by
    cases webhook <;> trivial

theorem getSecret_unasked (id : WebhookId) :
    (WebhookService.getSecret id).Within fun call => asks call = false :=
  .bind (.perform rfl) fun secret => by
    cases secret with
    | none => trivial
    | some secret =>
        dsimp only
        split <;> trivial

theorem settle_unasked (deployment : Deployment) (jobId : JobId) (job : Job)
    (result : DeliveryService.DeliveryResult) :
    (JobService.settle deployment jobId job result).Within
      fun call => asks call = false := by
  unfold JobService.settle
  split
  · refine .bind (.perform rfl) fun _ => ?_
    exact .bind (.perform rfl) fun _ => .perform rfl
  · refine .bind (.bind (.perform rfl) fun _ => .perform rfl) fun _ => ?_
    dsimp only
    split
    · exact .bind (.perform rfl) fun _ => .perform rfl
    · refine .bind (.bind (.perform rfl) fun _ => trivial) fun _ => ?_
      refine .bind (.perform rfl) fun _ => ?_
      exact .bind (.perform rfl) fun _ => .perform rfl

theorem deliverJob_unasked (deployment : Deployment) (jobId : JobId)
    (job : Job) :
    (JobService.deliverJob deployment jobId job).Within
      fun call => asks call = false :=
  .bind (.perform rfl) fun _ =>
  .bind (getById_unasked _) fun _ =>
  .bind (getSecret_unasked _) fun _ =>
  .bind ((deliver_within _ _ _ _).mono fun _ => unasked_of_delivers)
    fun _ => settle_unasked _ _ _ _

/-! ## The gates -/

/-- A gate leaves the job alone. -/
theorem held_asked {call : Call} (asked : asks call = true)
    (choice : Choice) (store : Store) :
    (exec deployment choice call store).2.held jobId = store.held jobId := by
  have places := exec_places deployment choice call store jobId
  have score := exec_score deployment choice call store jobId
  cases call with
  | checkCircuit | take =>
      simp only [Store.held, places, score]
      rfl
  | _ => cases asked

theorem follows_now {rest : Int → Async Value}
    (following : ∀ time, (heldDiscipline deployment pid jobId).Follows post
      (rest time) (held, ⟨pid, .now, .ok time⟩ :: calls)) :
    (heldDiscipline deployment pid jobId).Follows post
      ((await .now).bind rest) (held, calls) :=
  follows_spared (fun _ _ => rfl) fun choice _ _ => following choice.now

/-- A gate at the end of a program. -/
theorem follows_asked {call : Call} (asked : asks call = true)
    {post : Held × List Event → Except AppError call.Reply → Prop}
    (ends : ∀ outcome, post (held, ⟨pid, call, outcome⟩ :: calls) outcome) :
    (heldDiscipline deployment pid jobId).Follows post (await call)
      (held, calls) := by
  have whole : (await call).bind Program.pure = await call := rfl
  rw [← whole]
  refine follows_spared (held_asked asked) fun choice store _ => ?_
  split
  next reply _ => exact Sequential.follows_pure (ends (.ok reply))
  next failure _ => exact ends (.error failure)

theorem check_follows {webhookId : WebhookId} {cooldownMs : Int}
    {post : Held × List Event → Except AppError CircuitState → Prop}
    (ends : ∀ time outcome, post
      (held, ⟨pid, .checkCircuit webhookId time cooldownMs, outcome⟩ ::
        ⟨pid, .now, .ok time⟩ :: calls) outcome) :
    (heldDiscipline deployment pid jobId).Follows post
      (Circuit.check webhookId cooldownMs) (held, calls) :=
  follows_now fun time => follows_asked rfl (ends time)

theorem take_follows {webhookId : WebhookId} {rate burst cost : Int}
    {post : Held × List Event → Except AppError RateResult → Prop}
    (ends : ∀ time outcome, post
      (held, ⟨pid, .take webhookId rate burst time cost, outcome⟩ ::
        ⟨pid, .now, .ok time⟩ :: calls) outcome) :
    (heldDiscipline deployment pid jobId).Follows post
      (RateLimit.take webhookId rate burst cost) (held, calls) :=
  follows_now fun time => follows_asked rfl (ends time)

/-- A call of `process` on a job with a row. -/
theorem process_follows {row : JobRow} (own : row.id = jobId)
    (found : held.row = some row) :
    (heldDiscipline deployment pid jobId).Follows (Ends held row)
      (JobService.process deployment jobId) (held, []) := by
  have fresh : Passed [] := by
    intro event member
    cases member
  refine follows_spared (fun _ _ => rfl) ?_
  intro choice store same
  have there : (exec deployment choice (.findJob jobId) store).1 =
      .ok (some row.toJob) := by
    have stored : store.db.jobs jobId = some row := by
      rw [← found, ← same]
      rfl
    simp only [exec, Postgres.findJob, stored, Option.map_some]
  rw [there]
  have looked := fresh.cons (@passes_of_unasked (.findJob jobId) rfl pid
    (.ok (some row.toJob)))
  dsimp only
  split
  · exact follows_unasked (.perform rfl) looked
  refine Discipline.Follows.bind (check_follows ?_)
  rintro time (failure | state)
  · exact .inr (.inl fun ended => by cases ended)
  dsimp only
  split
  · exact follows_now fun now => deferUntil_follows own found
  next unopened =>
    have passes : (⟨pid, .checkCircuit row.webhookId time
        deployment.cooldownMs, .ok state⟩ : Event).defers = false :=
      decide_eq_false unopened
    have checked := (looked.cons (@passes_of_unasked .now rfl pid
      (.ok time))).cons passes
    refine Discipline.Follows.bind (take_follows ?_)
    rintro again (failure | rate)
    · exact .inr (.inl fun ended => by cases ended)
    dsimp only
    split
    · exact follows_now fun now => deferUntil_follows own found
    next allowed =>
      have taken : (⟨pid, .take row.webhookId deployment.perSecond
          deployment.burst again 1, .ok rate⟩ : Event).defers = false :=
        Bool.eq_false_iff.mpr allowed
      exact follows_unasked (deliverJob_unasked _ _ _)
        ((checked.cons (@passes_of_unasked .now rfl pid (.ok again))).cons
          taken)

end Pacing

/-! ## Any number of deferrals -/

variable {deployment : Deployment} {jobId : JobId}
  {before start after : Store} {row : JobRow}

theorem Deferral.effect (deferral : Deferral deployment jobId before after)
    (stored : before.db.jobs jobId = some row) :
    ∃ runAt updatedAt, after.held jobId =
      (before.held jobId).deferred row runAt updatedAt := by
  obtain ⟨pid, around, spare, answered, ended, ⟨event, member, defers⟩,
    rfl⟩ := deferral
  obtain ⟨outcome, held, finished, seen, ends⟩ :=
    Discipline.Follows.execute spare answered rfl
      (@Pacing.process_follows deployment pid jobId (before.held jobId) row
        (before.db.keyed stored) stored) 0
  cases finished.symm.trans ended
  rcases ends with passed | failed | deferred
  · exact absurd defers (Bool.eq_false_iff.mp (passed event member))
  · exact absurd rfl failed
  · exact deferred.imp fun _ => Exists.imp fun _ same => seen.trans same

/-- What deferrals leave: the row keeps its attempts, and loses its error. -/
theorem Deferrals.effect
    (deferrals : Deferrals deployment jobId before start after)
    (stored : before.db.jobs jobId = some row) :
    ∃ runAt updatedAt, after.held jobId =
      { start.held jobId with
        row := some { row with
          state := .queued, lastError := none, runAt := runAt
          updatedAt := updatedAt }
        records := before.db.attemptsOf jobId
        places := { (start.redis.places jobId).release with delayed := 1 }
        dueAt := some runAt } := by
  induction deferrals with
  | first deferral => exact deferral.effect stored
  | @next start middle again after _ sameRow sameRecords deferral ih =>
      obtain ⟨runAt, updatedAt, held⟩ := ih
      have there : again.db.jobs jobId = some { row with
          state := .queued, lastError := none, runAt := runAt
          updatedAt := updatedAt } :=
        sameRow.trans (congrArg Held.row held)
      have records : again.db.attemptsOf jobId = before.db.attemptsOf jobId :=
        sameRecords.trans (congrArg Held.records held)
      obtain ⟨later, written, left⟩ := deferral.effect there
      refine ⟨later, written, left.trans ?_⟩
      rw [← records]
      rfl

/-- Deferrals are pure pacing for exactly those jobs that have no error on
record. -/
theorem deferrals_paced_iff (deployment : Deployment) (jobId : JobId)
    {before start after : Store} {row : JobRow}
    (stored : before.db.jobs jobId = some row)
    (deferrals : Deferrals deployment jobId before start after) :
    Paced jobId row before start after ↔ row.lastError = none := by
  obtain ⟨runAt, updatedAt, held⟩ := deferrals.effect stored
  have written : after.db.jobs jobId = some { row with
      state := .queued, lastError := none, runAt := runAt
      updatedAt := updatedAt } := congrArg Held.row held
  constructor
  · intro paced
    obtain ⟨_, _, same, _⟩ := paced.row
    have kept := congrArg (Option.map JobRow.lastError)
      (written.symm.trans same)
    exact (Option.some.inj kept).symm
  · intro none
    refine ⟨⟨runAt, updatedAt, ?_, congrArg Held.dueAt held⟩,
      congrArg Held.records held, congrArg Held.places held⟩
    rw [written, ← none]

/-- A job that has been tried once. -/
def triedRow (lastError : Option String) : JobRow :=
  { JobInput.newRow 5 2 0 ⟨"acme", 1, "order.paid", "{}", none⟩ "{}" with
    attempts := 1, lastError := lastError }

/-- The job is claimed, and the circuit of its webhook is open. -/
def openCircuit (lastError : Option String) : Store where
  redis := { Redis.empty with
    inflight := [2]
    leases := SortedSets.SortedSet.empty.insert 2 60000
    circuits := fun _ => some ⟨⟨some .opened, some 5, some 0⟩, none⟩ }
  db := Postgres.empty.setJob (triedRow lastError)

/-- What a call of `process` at time 10 makes of it. -/
def putOff (lastError : Option String) : Store :=
  ((JobService.process {} 2).run {} 0 (.undisturbed { now := 10 })
    (openCircuit lastError)).world

theorem putOff_deferral (lastError : Option String) :
    Deferral {} 2 (openCircuit lastError) (putOff lastError) := by
  refine ⟨0, .undisturbed { now := 10 }, fun _ _ _ same => same,
    fun _ => ⟨_, rfl, trivial⟩, rfl, ?_, rfl⟩
  exact ⟨⟨0, .checkCircuit 1 10 30000, .ok .opened⟩,
    @List.mem_of_getElem? _ _ 3 _ rfl, rfl⟩

theorem deferrals_paced_iff_unfailed :
    Paced 2 (triedRow none) (openCircuit none) (openCircuit none)
      (putOff none) ↔ (triedRow none).lastError = none :=
  deferrals_paced_iff {} 2 rfl (.first (putOff_deferral none))

/-- A deferral overwrites the error of the last delivery. -/
theorem deferral_clears_error :
    Deferral {} 2 (openCircuit (some "HTTP 500")) (putOff (some "HTTP 500")) ∧
      ((putOff (some "HTTP 500")).db.jobs 2).map JobRow.lastError =
        some none ∧
      ¬ Paced 2 (triedRow (some "HTTP 500")) (openCircuit (some "HTTP 500"))
        (openCircuit (some "HTTP 500")) (putOff (some "HTTP 500")) := by
  refine ⟨putOff_deferral _, rfl, ?_⟩
  intro paced
  obtain ⟨_, _, same, _⟩ := paced.row
  have kept := congrArg (Option.map JobRow.lastError) same
  change some none = some (some "HTTP 500") at kept
  cases kept

end WebhookDelivery
