import WebhookDelivery.RowSteps

/-!
# Rows and queue agree

As long as overruled workers keep out of the way, the row of a job says where
its id may be: a delayed job is queued and a dead-lettered job is dead; and a
job that has been read as succeeded stays so.
-/

namespace WebhookDelivery

open Concurrency

variable {claimsDead : Prop} {deployment : Deployment}
  {before after : State} {action : Action}

/-- Rows and queue structures of one job. -/
structure Agrees (places : Places) (row : JobRow) : Prop where
  delayed : places.delayed = 1 → row.state = .queued
  dead : 0 < places.dlq → row.state = .dead

/-- Custody of the ids, knowledge of the rows, and the agreement of both. -/
structure RowInvariant (claimsDead : Prop) (state : State) : Prop where
  queue : QueueInvariant state
  disciplined : state.Disciplined (rowDiscipline claimsDead)
    (fun _ => State.rowView) RowDiscipline.Ends
  agrees : ∀ {jobId row}, state.store.db.jobs jobId = some row →
    Agrees (state.places jobId) row
  recorded : ∀ {jobId row}, state.store.db.jobs jobId = some row →
    jobId ∈ state.store.db.issued
  finished : ∀ {jobId}, state.readSucceeded jobId →
    jobId ∈ state.store.db.issued ∧
      ∀ row, state.store.db.jobs jobId = some row → row.state = .succeeded

theorem rowView_row {state : State} {claim : Claim} {jobId : JobId}
    (about : claim.job? = some jobId) :
    (state.rowView claim).row = state.store.db.jobs jobId := by
  simp [State.rowView, about]

theorem rowView_read {state : State} {claim : Claim} {jobId : JobId}
    (about : claim.job? = some jobId) :
    (state.rowView claim).read = state.readSucceeded jobId := by
  simp [State.rowView, about]

/-- What a completed call means for the row of its process' claim. -/
theorem writes_of_performed (invariant : RowInvariant claimsDead before)
    {pid : Pid} {choice : Choice} {call : Call}
    (claims : call = .brpoplpush →
      ∀ jobId ∈ before.store.redis.brpoplpush.1,
        ∀ row ∈ before.store.db.jobs jobId, row.state = .dead → claimsDead)
    {resumed : Except AppError call.Reply → Process} :
    (before.rowView (before.claim pid)).Writes claimsDead
      ((before.perform deployment pid choice call resumed).rowView
        ((before.claim pid).after call
          (exec deployment choice call before.store).1)) call
      (exec deployment choice call before.store).1 := by
  cases call with
  | findJob id =>
      intro (reserved : before.claim pid = .reserved id)
      rw [rowView_row (by rw [reserved]; rfl)]
      refine ⟨rfl, fun job found open_ => ?_⟩
      simp only [Postgres.findJob, Option.map_eq_some_iff] at found
      obtain ⟨row, stored, rfl⟩ := found
      have closed : row.state ≠ .succeeded := fun same => open_ (.inl same)
      show (((before.claim pid).after (.findJob id) _).job?.any _) = false
      rw [show (before.claim pid).after (.findJob id) _ = before.claim pid
        from rfl, reserved]
      show State.readSucceeded _ id = false
      rw [readSucceeded_perform, Bool.or_eq_false_iff]
      refine ⟨decide_eq_false fun read => ?_, ?_⟩
      · obtain ⟨other, stored', succeeded⟩ := Event.succeeded?_exec read
        rw [stored] at stored'
        cases stored'
        exact closed succeeded
      · by_contra read
        exact closed ((invariant.finished
          (Bool.eq_true_of_not_eq_false read)).2 row stored)
  | updateState update =>
      have sets := before.store.db.updateState_cases choice.now update
      simp only [exec]
      rcases sets with
        ⟨was, done⟩ | ⟨old, was, ⟨failure, done⟩ | ⟨_, done⟩⟩ <;> rw [done]
      · intro (reserved : before.claim pid = .reserved update.id) row found
        rw [rowView_row (by rw [reserved]; rfl), State.perform_store] at found
        simp only [exec, done, Store.withDb, was] at found
        cases found
      · trivial
      · intro (reserved : before.claim pid = .reserved update.id) row found
        have stored : old.id = update.id := before.store.db.keyed was
        have key : (update.apply choice.now old).id = update.id := stored
        rw [rowView_row (by rw [reserved]; rfl), State.perform_store] at found
        simp only [exec, done, Store.withDb, Postgres.setJob_jobs, key,
          if_true] at found
        refine ⟨old, choice.now, ?_, (Option.some.inj found).symm⟩
        rw [rowView_row (by rw [reserved]; rfl)]
        exact was
  | resetForReplay id =>
      have sets := before.store.db.resetForReplay_cases choice.now id
      simp only [exec]
      rcases sets with ⟨_, done⟩ | ⟨old, was, done⟩ <;> rw [done]
      · intro _ row found
        cases found
      · intro (replaying : before.claim pid = .replaying id) row found
        have stored : old.id = id := before.store.db.keyed was
        have key : (old.reset choice.now).id = id := stored
        rw [rowView_row (by rw [replaying]; rfl), State.perform_store]
          at found
        simp only [exec, done, Store.withDb, Postgres.setJob_jobs, key,
          if_true] at found
        rw [← Option.some.inj found]
        rfl
  | insertJob input =>
      have sets := before.store.db.insertJob_cases deployment.jsonb
        deployment.maxAttempts choice.uuid choice.now input
      simp only [exec]
      rcases sets with ⟨failure, done⟩ | ⟨_, _, _, _, done⟩ <;> rw [done]
      · trivial
      · intro row found
        rw [rowView_row rfl, State.perform_store] at found
        simp only [exec, done, Store.withDb] at found
        have written := found.symm.trans
          ((before.store.db.setJob_jobs _ _).trans (if_pos rfl))
        rw [Option.some.inj written]
        exact ⟨rfl, rfl⟩
  | brpoplpush =>
      simp only [exec]
      cases popped : before.store.redis.brpoplpush.1 with
      | none => trivial
      | some jobId => exact claims rfl jobId popped
  | zaddLease id expiry =>
      intro (popped : before.claim pid = .popped id)
      rw [rowView_row rfl, rowView_row (by rw [popped]; rfl)]
      rfl
  | popDlq =>
      simp only [exec]
      cases popped : before.store.redis.popDlq.1 with
      | none => trivial
      | some jobId =>
          intro row found
          exact (invariant.agrees found).dead (dlq_of_popDlq popped)
  | _ => trivial

theorem rowView_of_inert {pid : Pid} {choice : Choice} {call : Call}
    {resumed : Except AppError call.Reply → Process} (inert : call.inert)
    (claim : Claim) :
    ((before.perform deployment pid choice call resumed).rowView claim).row =
      (before.rowView claim).row := by
  have same : (exec deployment choice call before.store).2.db.jobs =
      before.store.db.jobs :=
    funext (exec_jobs_of_inert inert before.store)
  simp only [State.rowView, State.perform_store, same]

theorem rowView_of_unread {pid : Pid} {choice : Choice} {call : Call}
    {resumed : Except AppError call.Reply → Process}
    (unread : call.reads = false) (claim : Claim) :
    ((before.perform deployment pid choice call resumed).rowView claim).read =
      (before.rowView claim).read := by
  have same : (before.perform deployment pid choice call
      resumed).readSucceeded = before.readSucceeded := by
    funext jobId
    rw [readSucceeded_perform, Event.succeeded?_of_unread unread]
    rfl
  simp only [State.rowView, same]

/-- In quiet steps the rows are written as the row discipline expects. -/
theorem rowDiscipline_respects (invariant : RowInvariant claimsDead before)
    (quiet : Quiet before action)
    (claims : ClaimsDead before action → claimsDead)
    (taken : step deployment before action = some after) :
    Respects deployment (rowDiscipline claimsDead) (fun _ => State.rowView)
      before action after where
  performed {pid choice process call next rescue resumed} found running
      resumes same := by
    subst same
    refine ⟨rfl, exec_answers _ _ _ _, ?_, ?_,
      writes_of_performed invariant ?_⟩
    · intro inert
      have spares : call.spares := by
        cases call <;> first | rfl | exact inert
      rw [Claim.after_of_spares _ spares]
      exact rowView_of_inert inert _
    · intro spares unread
      rw [Claim.after_of_spares _ spares]
      exact rowView_of_unread unread _
    · rintro rfl jobId popped row stored dead
      exact claims ⟨performedCall?_eq_some resumes.performer?.1
        (State.pending?_of_running found running), jobId, popped, row,
        stored, dead⟩
  unanswered {pid call choice failure} _ _ := by
    refine ⟨trivial, ?_⟩
    cases (before.claim pid).after call
      (exec deployment choice call before.store).1 <;>
        exact (rowDiscipline claimsDead).rely_refl _
  failed {pid call failure} pending same := by
    refine ⟨trivial, ?_⟩
    have view : ∀ claim, after.rowView claim = before.rowView claim := by
      subst same
      cases steps_of_step taken with
      | failed => exact fun _ => rfl
      | performed _ _ _ resumes => cases resumes
    rw [view]
    cases before.claim pid <;> exact (rowDiscipline claimsDead).rely_refl _
  others {pid} other := by
    rcases overruled_of_other taken other with same | ⟨id, reserved, overruled⟩
    · by_cases superseded : ∃ id, before.claim pid = .superseded id
      · obtain ⟨id, superseded⟩ := superseded
        exact .inr ⟨id, .inr superseded, same.trans superseded⟩
      rw [same]
      cases about : (before.claim pid).job? with
      | none =>
          refine .inl ⟨rfl, fun row found => ?_, fun read => ?_⟩
          · simp only [State.rowView, about] at found
            cases found
          · simp only [State.rowView, about] at read
            cases read
      | some jobId =>
          refine .inl ⟨rfl, fun row found => ?_, fun read => ?_⟩
          · rw [rowView_row about] at found ⊢
            refine row_kept_of_held invariant.queue quiet taken ?_ other found
            cases claimed : before.claim pid with
            | superseded id => exact absurd ⟨id, claimed⟩ superseded
            | _ => rwa [claimed] at about
          · rw [rowView_row about]
            rw [rowView_read about] at read ⊢
            exact readSucceeded_of_step taken read
    · exact .inr ⟨id, .inl reserved, overruled⟩

namespace RowInvariant

theorem initial : RowInvariant claimsDead State.initial where
  queue := .initial
  disciplined _ _ _ found := by cases found
  agrees found := by cases found
  recorded found := by cases found
  finished read := by cases read

variable {state : State} {pid : Pid} {process : Process} {call : Call}
  {next : call.Reply → Async Result} {rescue : AppError → Async Result}

/-- What the row discipline promises at the pending call of a process. -/
theorem permits (invariant : RowInvariant claimsDead state)
    (pending : state.pending? pid = some call) :
    (state.rowView (state.claim pid)).Permits claimsDead call := by
  exact invariant.disciplined.allowed pending

/-- A job in the reserve of one worker has the row this worker knows of. -/
theorem all_of_claim {property : JobRow → Prop} {jobId : JobId} {row : JobRow}
    {claim : Claim} (about : claim.job? = some jobId)
    (all : (state.rowView claim).All property)
    (found : state.store.db.jobs jobId = some row) : property row :=
  all row ((rowView_row about).trans found)

/-- A call that takes effect keeps rows and queue in agreement. -/
private theorem agrees_of_performed (invariant : RowInvariant claimsDead before)
    (quiet : Quiet before action)
    (found : before.processes pid = some process)
    (running : process.status = .running (.call call next rescue))
    (performs : action.performer? = some pid) {choice : Choice}
    {resumed : Except AppError call.Reply → Process}
    (taken : step deployment before action =
      some (before.perform deployment pid choice call resumed))
    {jobId : JobId} {row : JobRow}
    (stored : (before.perform deployment pid choice call
      resumed).store.db.jobs jobId = some row) :
    Agrees ((before.perform deployment pid choice call
      resumed).places jobId) row := by
  have pending := State.pending?_of_running found running
  have permits := invariant.permits pending
  have queue := invariant.queue.permits pending
  have waits : 0 < (before.places jobId).delayed + (before.places jobId).dlq →
      Agrees (before.places jobId) row := by
    intro waiting
    exact invariant.agrees (row_kept_of_waiting invariant.queue quiet
      taken (by omega) stored)
  have moved : (before.perform deployment pid choice call
      resumed).places jobId = call.moves jobId (before.places jobId) _ :=
    exec_places deployment choice call before.store jobId
  rw [moved]
  -- A release by an overruled worker has found nothing to release.
  have harmless : before.claim pid = .superseded jobId →
      call.releases? = some jobId →
        call.FindsNothing (before.places jobId) := by
    intro superseded releases
    exact quiet.1 (jobId, call) (overruledRelease?_eq_some.mpr
      ⟨pid, performs, pending, releases, superseded⟩)
  constructor
  · intro delayed
    rcases Call.delayed_of_moves delayed with
      was | ⟨runAtMs, rfl⟩ | ⟨runAtMs, rfl⟩
    · exact (waits (by omega)).delayed was
    · have inserted : before.claim pid = .inserted jobId := queue
      exact (all_of_claim (by rw [inserted]; rfl) (permits inserted)
        stored).1
    · rcases queue with reserved | superseded
      · exact (all_of_claim (by rw [reserved]; rfl) (permits reserved)
          stored).1
      · have was := (harmless superseded rfl).2
        exact (waits (by omega)).delayed was
  · intro dead
    rcases Call.dlq_of_moves dead with was | rfl
    · exact (waits (by omega)).dead was
    · rcases queue with reserved | superseded
      · exact all_of_claim (by rw [reserved]; rfl) (permits reserved) stored
      · exact (harmless superseded rfl).elim

private theorem agrees_of_step (invariant : RowInvariant claimsDead before)
    (quiet : Quiet before action)
    (taken : WebhookDelivery.step deployment before action = some after)
    {jobId : JobId} {row : JobRow}
    (stored : after.store.db.jobs jobId = some row) :
    Agrees (after.places jobId) row := by
  cases steps_of_step taken with
  | performed found running connected resumes =>
      exact agrees_of_performed invariant quiet found running
        resumes.performer?.1 taken stored
  | promoted =>
      have agrees := invariant.agrees stored
      constructor
      · intro delayed
        simp only [State.places, Store.withRedis,
          Redis.places_promoteScript] at delayed
        split at delayed
        · cases delayed
        · exact agrees.delayed delayed
      · intro dead
        simp only [State.places, Store.withRedis,
          Redis.places_promoteScript] at dead
        split at dead <;> exact agrees.dead dead
  | reaped =>
      have agrees := invariant.agrees stored
      constructor
      · intro delayed
        simp only [State.places, State.reap, Store.withRedis,
          Redis.places_reapScript] at delayed
        split at delayed <;> exact agrees.delayed delayed
      · intro dead
        simp only [State.places, State.reap, Store.withRedis,
          Redis.places_reapScript] at dead
        split at dead <;> exact agrees.dead dead
  | deleted =>
      exact invariant.agrees (Option.filter_eq_some_iff.mp stored).1
  | start | failed | crashed | shutdown | ticked | registered =>
      exact invariant.agrees stored

/-- Nobody takes a job out of a terminal state but a replay. -/
theorem open_of_updated (invariant : RowInvariant claimsDead before)
    (quiet : Quiet before action)
    (taken : WebhookDelivery.step deployment before action = some after)
    {jobId : JobId} {old row : JobRow}
    (was : before.store.db.jobs jobId = some old)
    (stored : after.store.db.jobs jobId = some row) :
    row = old ∨ old.state.Open ∨ old.state = .dead := by
  cases row_of_step invariant.queue quiet taken stored with
  | kept was' => exact .inl (Option.some.inj (was'.symm.trans was))
  | inserted _ _ unissued => exact absurd (invariant.recorded was) unissued
  | updated pid update old' now performs pending works own was' new =>
      cases was.symm.trans was'
      refine .inr (.inl ?_)
      rcases works with reserved | ⟨_, _, open_⟩
      · subst own
        exact (all_of_claim (by rw [reserved]; rfl)
          (invariant.permits pending reserved) was).1
      · exact open_
  | reset pid old' now performs pending replaying was' new =>
      cases was.symm.trans was'
      exact .inr (.inr (all_of_claim (by rw [replaying]; rfl)
        (invariant.permits pending replaying) was))

/-- Success is final. -/
theorem succeeded_of_step (invariant : RowInvariant claimsDead before)
    (quiet : Quiet before action)
    (taken : WebhookDelivery.step deployment before action = some after)
    {jobId : JobId} {old row : JobRow}
    (was : before.store.db.jobs jobId = some old)
    (succeeded : old.state = .succeeded)
    (stored : after.store.db.jobs jobId = some row) :
    row.state = .succeeded := by
  rcases invariant.open_of_updated quiet taken was stored with
    rfl | open_ | dead
  · exact succeeded
  · exact absurd (.inl succeeded) open_
  · rw [succeeded] at dead
    cases dead

private theorem finished_of_step (invariant : RowInvariant claimsDead before)
    (quiet : Quiet before action)
    (taken : WebhookDelivery.step deployment before action = some after)
    {jobId : JobId} (read : after.readSucceeded jobId) :
    jobId ∈ after.store.db.issued ∧
      ∀ row, after.store.db.jobs jobId = some row → row.state = .succeeded := by
  have known : jobId ∈ before.store.db.issued ∧ ∀ row,
      before.store.db.jobs jobId = some row → row.state = .succeeded := by
    rcases readSucceeded_of_step taken read with earlier | ⟨row, was, done⟩
    · exact invariant.finished earlier
    · exact ⟨invariant.recorded was, fun other was' => by
        cases was.symm.trans was'
        exact done⟩
  refine ⟨issued_of_step taken known.1, fun row stored => ?_⟩
  cases was : before.store.db.jobs jobId with
  | some old =>
      exact invariant.succeeded_of_step quiet taken was (known.2 old was) stored
  | none =>
      cases row_of_step invariant.queue quiet taken stored with
      | inserted _ _ unissued => exact absurd known.1 unissued
      | kept was' => cases was.symm.trans was'
      | updated _ _ _ _ _ _ _ _ was' => cases was.symm.trans was'
      | reset _ _ _ _ _ _ was' => cases was.symm.trans was'

/-- Quiet steps keep rows and queue in agreement. -/
theorem step (invariant : RowInvariant claimsDead before)
    (quiet : Quiet before action)
    (claims : ClaimsDead before action → claimsDead)
    (taken : WebhookDelivery.step deployment before action = some after) :
    RowInvariant claimsDead after where
  queue := invariant.queue.step quiet.1 taken
  disciplined :=
    invariant.disciplined.step taken
      (fun _ _ _ _ => RowDiscipline.main_follows deployment _)
      (rowDiscipline_respects invariant quiet claims taken)
  agrees stored := agrees_of_step invariant quiet taken stored
  recorded stored := by
    rcases issued_of_row taken stored with known | ⟨old, was⟩
    · exact known
    · exact issued_of_step taken (invariant.recorded was)
  finished read := finished_of_step invariant quiet taken read

end RowInvariant

end WebhookDelivery
