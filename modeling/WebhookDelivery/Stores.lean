import WebhookDelivery.Punctual
import WebhookDelivery.TraceInvariant
import WebhookDelivery.Fencing

/-!
# The two stores agree

Every transition of a job writes its row and moves its id in two steps.  As long
as no live worker outlives its lease and no row is deleted, the queue structures
nevertheless never contradict the rows.
-/

namespace WebhookDelivery

open Concurrency SortedSets

/-- The job has a row in the given state. -/
def State.HasRow (state : State) (jobId : JobId) (jobState : JobState) :
    Prop :=
  ∃ row, state.store.db.jobs jobId = some row ∧ row.state = jobState

/-- A delayed job has a queued row that is due at its score, and a
dead-lettered job has a dead row. -/
def StoresAgree (state : State) : Prop :=
  ∀ jobId,
    (∀ time, state.store.redis.delayed.score? jobId = some time →
      ∃ row, state.store.db.jobs jobId = some row ∧
        row.state = .queued ∧ row.runAt = time) ∧
    (jobId ∈ state.store.redis.dlq → state.HasRow jobId .dead)

/-- A replay takes and resets dead jobs only, and what is pushed is queued. -/
def Call.ReplaysDead (state : State) : Call → Prop
  | .popDlq => ∀ jobId ∈ state.store.redis.popDlq.1, state.HasRow jobId .dead
  | .resetForReplay jobId => state.HasRow jobId .dead
  | .push jobId => state.HasRow jobId .queued
  | _ => True

/-- Promotion acts on queued jobs and replay on dead ones. -/
def ActsOnWaiting (state : State) (action : Action) : Prop :=
  (∀ nowMs batchSize, action = .promote nowMs batchSize →
    ∀ jobId ∈ state.store.redis.delayed.rangeByScore nowMs batchSize,
      state.HasRow jobId .queued) ∧
    ∀ call ∈ performedCall? state action, call.ReplaysDead state

variable {deployment : Deployment} {before after : State} {action : Action}
  {jobId : JobId}

/-! ## Jobs in the queue have rows -/

/-- Every job that is in the queue structures or claimed has a row. -/
def State.Backed (state : State) : Prop :=
  ∀ jobId, 0 < (state.places jobId).copies ∨
    (∃ pid, (state.claim pid).job? = some jobId) →
      (state.store.db.jobs jobId).isSome

/-- A process performs a call that is about the job. -/
def TakesUp (deployment : Deployment) (before : State) (action : Action)
    (after : State) (jobId : JobId) : Prop :=
  ∃ pid choice call, action.performer? = some pid ∧
    before.pending? pid = some call ∧
    after.store = (exec deployment choice call before.store).2 ∧
    call.target? (exec deployment choice call before.store).1 = some jobId

/-- A job comes to the queue structures by a call that is about it. -/
theorem copies_of_step (taken : step deployment before action = some after)
    (sound : (before.places jobId).Sound)
    (present : 0 < (after.places jobId).copies) :
    0 < (before.places jobId).copies ∨
      TakesUp deployment before action after jobId := by
  cases steps_of_step taken with
  | @performed _ pid choice process call next rescue resumed found running
      connected resumes =>
      by_cases about :
          call.target? (exec deployment choice call before.store).1 =
            some jobId
      · exact .inr ⟨pid, choice, call, resumes.performer?.1,
          State.pending?_of_running found running, rfl, about⟩
      · left
        rw [State.places, State.perform_store, exec_places,
          Call.moves_of_target about] at present
        exact present
  | promoted =>
      left
      simp only [State.places, Store.withRedis, Redis.places_promoteScript]
        at present ⊢
      split at present
      next due =>
        have delayed := Redis.delayed_of_mem_range due
        simp only [Places.copies]
        omega
      · exact present
  | reaped =>
      left
      have leased := sound.leased
      simp only [State.places, State.reap, Store.withRedis,
        Redis.places_reapScript] at present leased ⊢
      split at present
      next expired =>
        have lease := Redis.leased_of_mem_range expired
        simp only [Places.copies]
        omega
      · exact present
  | start | failed | crashed | shutdown | ticked | registered | deleted =>
      exact .inl present

/-- A claim on a job comes about by a call that is about it. -/
theorem job_of_step (taken : step deployment before action = some after)
    {pid : Pid} (claimed : (after.claim pid).job? = some jobId) :
    (before.claim pid).job? = some jobId ∨
      TakesUp deployment before action after jobId := by
  have updated : ∀ {actor process},
      (process.claim = before.claim actor ∨ process.claim = .none) →
        (before.setProcess actor process).claim pid = after.claim pid →
          (before.claim pid).job? = some jobId := by
    intro actor process own same
    rcases before.claim_setProcess own pid with kept | none
    · rwa [← kept, same]
    · rw [← same, none] at claimed
      cases claimed
  cases steps_of_step taken with
  | start unused =>
      refine .inl (updated ?_ rfl)
      rcases Process.proceed_claim with same | none
      · exact .inr same
      · exact .inr none
  | @performed _ actor choice process call next rescue resumed found running
      connected resumes =>
      by_cases same : pid = actor
      · subst same
        by_cases about :
            call.target? (exec deployment choice call before.store).1 =
              some jobId
        · exact .inr ⟨pid, choice, call, resumes.performer?.1,
            State.pending?_of_running found running, rfl, about⟩
        · left
          rw [State.claim_of_found (State.perform_self ..)] at claimed
          rw [State.claim_of_found found]
          rcases QueueInvariant.claim_of_resumes resumes
              (exec deployment choice call before.store).1 with now | none
          · rw [now] at claimed
            rcases Claim.after_of_target about process.claim with kept | gone
            · rwa [kept] at claimed
            · exact absurd claimed gone
          · rw [none] at claimed
            cases claimed
      · rw [State.claim_congr (State.perform_of_ne _ _ _ _ _ _ same)]
          at claimed
        exact .inl claimed
  | @failed actor failure process call next rescue found running =>
      refine .inl (updated ?_ rfl)
      rw [State.claim_of_found found]
      rcases Process.proceed_claim with same | none
      · rcases Claim.lost_cases process.claim with kept | gone
        · exact .inl (same.trans kept)
        · exact .inr (same.trans gone)
      · exact .inr none
  | crashed found live => exact .inl (updated (.inr rfl) rfl)
  | shutdown found =>
      refine .inl (updated (.inl ?_) rfl)
      rw [Process.shutdown_claim, State.claim_of_found found]
  | @reaped nowMs batchSize =>
      rw [State.claim_reap] at claimed
      left
      cases held : before.claim pid with
      | reserved id =>
          rw [held] at claimed
          simp only [Claim.reaped] at claimed
          split at claimed <;> exact claimed
      | none | inserted _ | popped _ | superseded _ | replaying _ =>
          rw [held] at claimed
          exact claimed
  | promoted | ticked | registered | deleted => exact .inl claimed

namespace State.Backed

theorem initial : State.initial.Backed := by
  rintro jobId (present | ⟨pid, claimed⟩)
  · cases present
  · cases claimed

/-- A job that a process takes up has a row. -/
private theorem of_takesUp (backed : before.Backed)
    (queue : QueueInvariant before) (kept : action.deletes = false)
    (taken : WebhookDelivery.step deployment before action = some after)
    (takes : TakesUp deployment before action after jobId) :
    (after.store.db.jobs jobId).isSome := by
  obtain ⟨pid, choice, call, performs, pending, store, about⟩ := takes
  have permits := queue.permits pending
  have stays : 0 < (before.places jobId).copies ∨
      (∃ pid, (before.claim pid).job? = some jobId) →
        (after.store.db.jobs jobId).isSome :=
    fun known => row_stays taken kept (backed jobId known)
  have held : ∀ {claim : Claim}, before.claim pid = claim →
      claim.job? = some jobId → (after.store.db.jobs jobId).isSome :=
    fun same isJob => stays (.inr ⟨pid, same ▸ isJob⟩)
  cases call with
  | push id =>
      cases about
      rcases permits with inserted | replaying
      · exact held inserted rfl
      · exact held replaying rfl
  | pushDelayed id time =>
      cases about
      exact held permits rfl
  | zaddLease id expiry =>
      cases about
      exact held permits rfl
  | ack id | retryLater id _ | deadLetter id =>
      cases about
      rcases permits with reserved | superseded
      · exact held reserved rfl
      · exact held superseded rfl
  | brpoplpush =>
      simp only [exec] at about
      cases popped : before.store.redis.brpoplpush.1 with
      | none =>
          rw [popped] at about
          cases about
      | some id =>
          rw [popped] at about
          cases about
          have ready := ready_of_brpoplpush popped
          refine stays (.inl ?_)
          simp only [State.places, Places.copies]
          omega
  | popDlq =>
      simp only [exec] at about
      cases popped : before.store.redis.popDlq.1 with
      | none =>
          rw [popped] at about
          cases about
      | some id =>
          rw [popped] at about
          cases about
          have waiting := dlq_of_popDlq popped
          refine stays (.inl ?_)
          simp only [State.places, Places.copies]
          omega
  | insertJob input =>
      cases outcome : (exec deployment choice (.insertJob input)
          before.store).1 with
      | error failure =>
          rw [outcome] at about
          cases about
      | ok job =>
          rw [outcome] at about
          cases about
          have inserts : Event.inserted? ⟨pid, .insertJob input,
              (exec deployment choice (.insertJob input)
                before.store).1⟩ = some job := by
            rw [outcome]
            rfl
          obtain ⟨_, _, _, _, _, _, stored, _⟩ := Event.inserted?_exec inserts
          rw [store, stored]
          rfl
  | _ => cases about

theorem step (backed : before.Backed) (queue : QueueInvariant before)
    (kept : action.deletes = false)
    (taken : WebhookDelivery.step deployment before action = some after) :
    after.Backed := by
  rintro jobId (present | ⟨pid, claimed⟩)
  · rcases copies_of_step taken (queue.custody jobId).sound present with
      earlier | takes
    · exact row_stays taken kept (backed jobId (.inl earlier))
    · exact backed.of_takesUp queue kept taken takes
  · rcases job_of_step taken claimed with earlier | takes
    · exact row_stays taken kept (backed jobId (.inr ⟨pid, earlier⟩))
    · exact backed.of_takesUp queue kept taken takes

end State.Backed

/-! ## Scores and rows -/

/-- A score is kept, or set by one of two commands. -/
theorem score_of_step (taken : step deployment before action = some after)
    {time : Int}
    (scored : after.store.redis.delayed.score? jobId = some time) :
    before.store.redis.delayed.score? jobId = some time ∨
      ∃ pid, action.performer? = some pid ∧
        (before.pending? pid = some (.pushDelayed jobId time) ∨
          before.pending? pid = some (.retryLater jobId time)) := by
  cases steps_of_step taken with
  | @performed _ pid choice process call next rescue resumed found running
      connected resumes =>
      have pending := State.pending?_of_running found running
      have performs := resumes.performer?.1
      rw [State.perform_store, exec_score] at scored
      cases call with
      | pushDelayed id runAtMs =>
          simp only [Call.schedules] at scored
          split at scored
          next same =>
            cases scored
            exact .inr ⟨pid, performs, .inl (same ▸ pending)⟩
          · exact .inl scored
      | retryLater id runAtMs =>
          simp only [Call.schedules] at scored
          split at scored
          next same =>
            cases scored
            exact .inr ⟨pid, performs, .inr (same ▸ pending)⟩
          · exact .inl scored
      | _ => exact .inl scored
  | promoted =>
      left
      change (Redis.promoteScript _ _ _).2.delayed.score? jobId = _ at scored
      rw [Redis.score_promoteScript] at scored
      split at scored
      · cases scored
      · exact scored
  | reaped =>
      left
      change (Redis.reapScript _ _ _).2.delayed.score? jobId = _ at scored
      rw [Redis.delayed_reapScript] at scored
      exact scored
  | start | failed | crashed | shutdown | ticked | registered | deleted =>
      exact .inl scored

/-- No claim has been overruled, every job in the queue has a row, and that of
a delayed job is due at its score. -/
structure StoresInvariant (state : State) : Prop where
  rows : RowInvariant True state
  unoverruled : state.Unoverruled
  backed : state.Backed
  scored : ∀ {jobId time row},
    state.store.redis.delayed.score? jobId = some time →
    state.store.db.jobs jobId = some row → row.runAt = time

namespace StoresInvariant

theorem initial : StoresInvariant State.initial where
  rows := .initial
  unoverruled := .initial
  backed := .initial
  scored none := by cases none

private theorem scored_of_step (invariant : StoresInvariant before)
    (taken : WebhookDelivery.step deployment before action = some after)
    {time : Int} {row : JobRow}
    (scored : after.store.redis.delayed.score? jobId = some time)
    (stored : after.store.db.jobs jobId = some row) : row.runAt = time := by
  have quiet := invariant.unoverruled.quiet action
  rcases score_of_step taken scored with
    earlier | ⟨pid, performs, pending⟩
  · have waiting : 0 < (before.places jobId).delayed +
        (before.places jobId).dlq := by
      have delayed : (before.places jobId).delayed = 1 := by
        simp [State.places, Redis.places, earlier]
      omega
    exact invariant.scored earlier
      (row_kept_of_waiting invariant.rows.queue quiet taken waiting stored)
  · rcases pending with pushes | retries
    · obtain ⟨choice, process, next, rescue, resumed, found, running, _,
        rfl⟩ := performed_of_performer? taken performs pushes
      have claimed : before.claim pid = .inserted jobId :=
        invariant.rows.queue.permits pushes
      have permits := invariant.rows.permits pushes claimed
      exact (RowInvariant.all_of_claim (by rw [claimed]; rfl) permits
        stored).2
    · obtain ⟨choice, process, next, rescue, resumed, found, running, _,
        rfl⟩ := performed_of_performer? taken performs retries
      have claimed : before.claim pid = .reserved jobId :=
        (invariant.rows.queue.permits retries).resolve_right
          (invariant.unoverruled pid jobId)
      have permits := invariant.rows.permits retries claimed
      exact (RowInvariant.all_of_claim (by rw [claimed]; rfl) permits
        stored).2

theorem step (invariant : StoresInvariant before)
    (punctual : ¬Overrules before action) (kept : action.deletes = false)
    (taken : WebhookDelivery.step deployment before action = some after) :
    StoresInvariant after where
  rows := invariant.rows.step (invariant.unoverruled.quiet action)
    (fun _ => trivial) taken
  unoverruled := invariant.unoverruled.step punctual taken
  backed := invariant.backed.step invariant.rows.queue kept taken
  scored := invariant.scored_of_step taken

theorem queued_of_delayed {state : State} (invariant : StoresInvariant state)
    (delayed : (state.places jobId).delayed = 1) :
    state.HasRow jobId .queued := by
  obtain ⟨row, stored⟩ := Option.isSome_iff_exists.mp
    (invariant.backed jobId (.inl (by simp only [Places.copies]; omega)))
  exact ⟨row, stored, (invariant.rows.agrees stored).delayed delayed⟩

theorem dead_of_dlq {state : State} (invariant : StoresInvariant state)
    (waiting : 0 < (state.places jobId).dlq) :
    state.HasRow jobId .dead := by
  obtain ⟨row, stored⟩ := Option.isSome_iff_exists.mp
    (invariant.backed jobId (.inl (by simp only [Places.copies]; omega)))
  exact ⟨row, stored, (invariant.rows.agrees stored).dead waiting⟩

theorem storesAgree {state : State} (invariant : StoresInvariant state) :
    StoresAgree state := by
  intro jobId
  constructor
  · intro time scored
    have delayed : (state.places jobId).delayed = 1 := by
      simp [State.places, Redis.places, scored]
    obtain ⟨row, stored, queued⟩ := invariant.queued_of_delayed delayed
    exact ⟨row, stored, queued, invariant.scored scored stored⟩
  · intro member
    exact invariant.dead_of_dlq (List.count_pos_iff.mpr member)

theorem actsOnWaiting {state : State} (invariant : StoresInvariant state)
    (action : Action) : ActsOnWaiting state action := by
  constructor
  · intro nowMs batchSize _ jobId due
    exact invariant.queued_of_delayed (Redis.delayed_of_mem_range due)
  intro call performed
  simp only [performedCall?, Option.mem_def, Option.bind_eq_bind,
    Option.bind_eq_some_iff] at performed
  obtain ⟨pid, _, pending⟩ := performed
  have queue := invariant.rows.queue.permits pending
  have permits := invariant.rows.permits pending
  have held : ∀ {claim : Claim} {jobId : JobId} {jobState : JobState},
      state.claim pid = claim → claim.job? = some jobId →
        ((state.rowView (state.claim pid)).All fun row =>
          row.state = jobState) → state.HasRow jobId jobState := by
    intro claim jobId jobState same about all
    rw [← same] at about
    obtain ⟨row, stored⟩ := Option.isSome_iff_exists.mp
      (invariant.backed jobId (.inr ⟨pid, about⟩))
    exact ⟨row, stored, RowInvariant.all_of_claim about all stored⟩
  cases call with
  | popDlq =>
      intro jobId popped
      exact invariant.dead_of_dlq (dlq_of_popDlq popped)
  | resetForReplay jobId => exact held queue rfl (permits queue)
  | push jobId =>
      rcases queue with inserted | replaying
      · exact held inserted rfl (permits (by rw [inserted]; rfl))
      · exact held replaying rfl (permits (by rw [replaying]; rfl))
  | _ => trivial

end StoresInvariant

/-- In every run that deletes no row and in which no live worker outlives its
lease, whatever crashes or fails, the two stores agree, and promotion and
replay act on waiting jobs only. -/
theorem stores_agree (deployment : Deployment) (actions : List Action)
    (kept : ∀ transition ∈
      transitions (step deployment) State.initial actions,
        transition.action.deletes = false)
    (punctual : ∀ transition ∈
      transitions (step deployment) State.initial actions,
        ¬Overrules transition.before transition.action) :
    ∀ transition ∈ transitions (step deployment) State.initial actions,
      StoresAgree transition.after ∧
        ActsOnWaiting transition.before transition.action := by
  intro transition member
  obtain ⟨before, after⟩ := @invariant_of_transitions _ _ (step deployment)
    StoresInvariant
    (fun state action =>
      action.deletes = false ∧ ¬Overrules state action)
    (fun _ _ _ invariant allowed taken =>
      invariant.step allowed.2 allowed.1 taken)
    _ .initial _
    (fun transition member => ⟨kept transition member,
      punctual transition member⟩) transition member
  exact ⟨after.storesAgree, before.actsOnWaiting transition.action⟩

/-- Worker 1 crashes between its update to `queued` and its `retryLater`; the
reaper returns the job, and worker 2 delivers and dead-letters it. -/
def crashedBeforeRetry : List Action :=
  enqueueOne ++ deliverOnce 1 500 7 ++ [.crash 1, .reap 60000 100] ++
    deliverOnce 2 400 7

theorem stores_agree_crashedBeforeRetry :
    (run (step {}) State.initial crashedBeforeRetry).isSome ∧
      ∀ transition ∈
        transitions (step {}) State.initial crashedBeforeRetry,
          StoresAgree transition.after ∧
            ActsOnWaiting transition.before transition.action :=
  ⟨by decide +kernel, stores_agree {} crashedBeforeRetry (by decide +kernel)
    (punctual_of_history (by decide +kernel))⟩

end WebhookDelivery
