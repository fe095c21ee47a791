import WebhookDelivery.RetryCalls

/-!
# Steady steps keep every job on its course

A process lets go of a job at one of five calls, at each of which the stores
have caught up with the course of the job; every other step leaves the jobs
that nobody holds alone, or is the scheduler's.
-/

namespace WebhookDelivery

open Concurrency Discipline

namespace CourseInvariant

variable {deployment : Deployment} {before after : State} {action : Action}
  {courses : JobId → Course} {pid : Pid} {call : Call} {jobId : JobId}
  {row : JobRow}

theorem effect_of_call (invariant : CourseInvariant deployment courses before)
    {choice : Choice} (steady : Steady deployment before (.call pid choice))
    (pending : before.pending? pid = some call)
    {resumed : Except AppError call.Reply → Process} :
    (courseDiscipline deployment.maxAttempts).Effect
      (before.courseView courses (before.claim pid)) call
      (exec deployment choice call before.store).1
      ((before.perform deployment pid choice call resumed).courseView
        (before.advance deployment (.call pid choice) courses)
        ((before.claim pid).after call
          (exec deployment choice call before.store).1)) := by
  refine ⟨rfl, exec_answers _ _ _ _, fun answers => ?_, fun none => ?_,
    invariant.writes_of_performed pending⟩
  · have ok := steady.2 call pending answers
    cases outcome : (exec deployment choice call before.store).1 with
    | ok reply => exact ⟨reply, rfl⟩
    | error failure =>
        rw [outcome] at ok
        cases ok
  · have none : (before.claim pid).after call
        (exec deployment choice call before.store).1 = .none := none
    rw [none]
    rfl

theorem carries (invariant : CourseInvariant deployment courses before)
    (steady : Steady deployment before action)
    (taken : WebhookDelivery.step deployment before action = some after) :
    Carries deployment (courseDiscipline deployment.maxAttempts)
      (fun _ => State.courseView courses)
      (fun _ => State.courseView (before.advance deployment action courses))
      before action after where
  performed {pid choice process call next rescue resumed} found running
      resumes same := by
    subst same
    cases resumes with
    | replied =>
        exact invariant.effect_of_call steady
          (State.pending?_of_running found running)
    | unanswered => exact steady.2.elim
  unanswered {pid call choice failure} _ same := by
    subst same
    exact steady.2.elim
  failed {pid call failure} _ same := by
    subst same
    exact steady.2.elim
  others other := invariant.rely_of_other steady taken other

/-- A process gives up the claim its call has left it with only when the job
is no more. -/
theorem claim_of_call (invariant : CourseInvariant deployment courses before)
    {choice : Choice} (steady : Steady deployment before (.call pid choice))
    {process : Process} {next : call.Reply → Async Result}
    {rescue : AppError → Async Result}
    (found : before.processes pid = some process)
    (running : process.status = .running (.call call next rescue))
    (same : after = before.perform deployment pid choice call
      (process.replied deployment next rescue))
    (about : ((before.claim pid).after call
      (exec deployment choice call before.store).1).job? = some jobId)
    (stored : after.store.db.jobs jobId = some row) :
    after.claim pid = (before.claim pid).after call
      (exec deployment choice call before.store).1 := by
  subst same
  have follows := invariant.disciplined.resumed found running
    (@effect_of_call _ _ _ pid call invariant _ steady
      (State.pending?_of_running found running)
      (process.replied deployment next rescue))
  rw [State.claim_of_found (State.perform_self ..), Process.replied,
    ← State.claim_of_found found]
  have ends := @claim_or_ends deployment _ _ process _ ((before.claim pid).after
    call (exec deployment choice call before.store).1) _ follows
  rcases ends with kept | ⟨_, gone⟩
  · exact kept
  · have gone : (State.courseView _ _ _).row = none := gone
    rw [courseView_of_job about, stored] at gone
    cases gone

/-- A process that makes no call keeps its claim. -/
theorem claim_of_unperformed
    (invariant : CourseInvariant deployment courses before)
    (steady : Steady deployment before action)
    (taken : WebhookDelivery.step deployment before action = some after)
    (unperformed : action.performer? ≠ some pid)
    (held : (before.claim pid).holds? = some jobId) :
    after.claim pid = before.claim pid := by
  by_cases acts : action.actor? = some pid
  · cases steps_of_step taken with
    | start unused =>
        cases acts
        rw [State.claim_of_unused unused] at held
        cases held
    | performed _ _ _ resumes =>
        rw [resumes.performer?.2] at acts
        cases acts
        exact absurd resumes.performer?.1 unperformed
    | failed | crashed => exact steady.2.elim
    | shutdown | promoted | reaped | ticked | registered | deleted =>
        cases acts
  · rcases overruled_of_other taken acts with same | ⟨id, _, overruled⟩
    · exact same
    · exact absurd overruled
        (invariant.unoverruled.step steady.1 taken pid id)

/-- The job of a call that has taken effect is held afterwards, if the claim
that the call leaves is about it. -/
theorem held_of_call (invariant : CourseInvariant deployment courses before)
    (steady : Steady deployment before action)
    (taken : WebhookDelivery.step deployment before action = some after)
    (performs : action.performer? = some pid)
    (pending : before.pending? pid = some call)
    (unheld : after.Unheld jobId)
    (stored : after.store.db.jobs jobId = some row) :
    ∃ choice, action = .call pid choice ∧
      after.store = (exec deployment choice call before.store).2 ∧
      ((before.claim pid).after call
        (exec deployment choice call before.store).1).holds? ≠ some jobId := by
  obtain ⟨choice, process, next, rescue, resumed, found, running, resumes,
    same⟩ := performed_of_performer? taken performs pending
  cases resumes with
  | unanswered => exact steady.2.elim
  | replied =>
      refine ⟨choice, rfl, by rw [same]; rfl, fun holds => ?_⟩
      have kept := invariant.claim_of_call steady found running same
        (Claim.job?_of_holds? holds) stored
      apply unheld pid
      rw [kept]
      exact holds

/-- A job that nobody holds has not been inserted just now. -/
theorem known_of_unheld (invariant : CourseInvariant deployment courses before)
    (steady : Steady deployment before action)
    (taken : WebhookDelivery.step deployment before action = some after)
    (unheld : after.Unheld jobId)
    (stored : after.store.db.jobs jobId = some row) :
    jobId ∈ before.store.db.issued := by
  have recorded : ∀ {old}, before.store.db.jobs jobId = some old →
      jobId ∈ before.store.db.issued := invariant.rows.recorded
  cases steps_of_step taken with
  | @performed _ pid choice process call next rescue resumed found running
      connected resumes =>
      have pending := State.pending?_of_running found running
      rcases exec_jobs_cases deployment choice call before.store jobId with
        same | ⟨_, _, _, _, was, _⟩ | ⟨_, _, was, _⟩ |
          ⟨input, rfl, unissued, issued, _⟩
      · exact recorded (same.symm.trans stored)
      · exact recorded was
      · exact recorded was
      · obtain ⟨choice', rfl, store, released⟩ := invariant.held_of_call
          steady taken resumes.performer?.1 pending unheld stored
        rw [State.perform_store] at store
        rw [store] at issued
        simp only [exec] at issued released
        rcases before.store.db.insertJob_cases deployment.jsonb
          deployment.maxAttempts choice'.uuid choice'.now input with
          ⟨failure, raised⟩ | ⟨_, _, _, _, done⟩
        · rw [raised] at issued
          exact absurd issued unissued
        · rw [done] at issued released
          rcases List.mem_cons.mp issued with rfl | known
          · exact absurd rfl released
          · exact absurd known unissued
  | deleted => exact recorded (Option.filter_eq_some_iff.mp stored).1
  | start | failed | crashed | shutdown | promoted | reaped | ticked
  | registered => exact recorded stored

/-- A job that nobody holds stays in its place while nothing happens to it. -/
theorem places_of_apart (invariant : CourseInvariant deployment courses before)
    (steady : Steady deployment before action)
    (taken : WebhookDelivery.step deployment before action = some after)
    (apart : Apart before action jobId) (unheld : after.Unheld jobId)
    (stored : after.store.db.jobs jobId = some row)
    (unleased : (before.places jobId).leases = 0)
    (uneventful : occurrence? deployment jobId before action = none) :
    after.places jobId = before.places jobId := by
  cases steps_of_step taken with
  | @performed _ pid choice process call next rescue resumed found running
      connected resumes =>
      have pending := State.pending?_of_running found running
      have performs := resumes.performer?.1
      have claims := invariant.claims pending
      have free := apart pid performs
      obtain ⟨choice', rfl, store, released⟩ := invariant.held_of_call steady
        taken performs pending unheld stored
      rw [State.places, store, exec_places]
      refine Call.moves_of_target (fun target => ?_) _
      cases call with
      | push id =>
          cases target
          rcases claims with claimed | claimed <;>
            exact free (by rw [claimed]; rfl)
      | pushDelayed id time =>
          cases target
          exact free (by rw [show before.claim pid = _ from claims]; rfl)
      | zaddLease id expiry =>
          cases target
          exact free (by rw [show before.claim pid = _ from claims]; rfl)
      | ack id | retryLater id time | deadLetter id =>
          cases target
          rcases claims with claimed | claimed
          · exact free (by rw [claimed]; rfl)
          · exact invariant.unoverruled pid _ claimed
      | brpoplpush =>
          simp only [exec] at target released
          cases popped : before.store.redis.brpoplpush.1 with
          | none =>
              rw [popped] at target
              cases target
          | some id =>
              rw [popped] at target released
              cases target
              exact released rfl
      | popDlq =>
          simp only [exec] at target released
          cases popped : before.store.redis.popDlq.1 with
          | none =>
              rw [popped] at target
              cases target
          | some id =>
              rw [popped] at target released
              cases target
              exact released rfl
      | insertJob input =>
          cases outcome : (exec deployment choice' (.insertJob input)
            before.store).1 with
          | error failure =>
              rw [outcome] at target
              cases target
          | ok job =>
              rw [outcome] at target released
              cases target
              exact released rfl
      | _ => cases target
  | @promoted nowMs batchSize =>
      have undue :
          jobId ∉ before.store.redis.delayed.rangeByScore nowMs batchSize := by
        intro due
        rw [occurrence?, if_pos due] at uneventful
        cases uneventful
      simp only [State.places, Store.withRedis, Redis.places_promoteScript,
        undue, if_false]
  | @reaped nowMs batchSize =>
      have spared :
          jobId ∉ before.store.redis.leases.rangeByScore nowMs batchSize := by
        intro expired
        have leased := Redis.leased_of_mem_range expired
        rw [State.places] at unleased
        omega
      simp only [State.places, State.reap, Store.withRedis,
        Redis.places_reapScript, spared, if_false]
  | failed | crashed => exact steady.2.elim
  | start | shutdown | ticked | registered | deleted => rfl

/-- A process performs the call it is suspended at. -/
theorem pending_of_performer?
    (taken : WebhookDelivery.step deployment before action = some after)
    (performs : action.performer? = some pid) :
    ∃ call, before.pending? pid = some call := by
  cases steps_of_step taken with
  | performed found running _ resumes =>
      rw [resumes.performer?.1] at performs
      cases performs
      exact ⟨_, State.pending?_of_running found running⟩
  | _ => cases performs

/-- In a step of somebody else, a job that nobody holds follows its course. -/
private theorem tallies_of_apart
    (invariant : CourseInvariant deployment courses before)
    (steady : Steady deployment before action)
    (taken : WebhookDelivery.step deployment before action = some after)
    (apart : Apart before action jobId) (unheld : after.Unheld jobId)
    (stored : after.store.db.jobs jobId = some row) :
    ∃ position, Tallies deployment.maxAttempts position row
        (after.records jobId)
        (before.advance deployment action courses jobId) ∧
      after.places jobId = position.places := by
  have known := invariant.known_of_unheld steady taken unheld stored
  obtain ⟨was, records⟩ := invariant.kept_of_apart taken apart known stored
  have unheldBefore : before.Unheld jobId := by
    intro pid held
    have kept := invariant.claim_of_unperformed steady taken
      (fun performs => apart pid performs held) held
    apply unheld pid
    rw [kept]
    exact held
  obtain ⟨position, tallies, places⟩ := invariant.tallies was unheldBefore
  have unleased : (before.places jobId).leases = 0 := by
    rw [places]
    cases position <;> rfl
  rw [records]
  rcases invariant.occurrence_of_apart apart with
    none | ⟨nowMs, batchSize, rfl, due⟩
  · refine ⟨position, ?_, ?_⟩
    · rw [State.advance, none]
      exact tallies
    · exact (invariant.places_of_apart steady taken apart unheld stored
        unleased none).trans places
  · have delayed := Redis.delayed_of_mem_range due
    have isDelayed : position = .delayed := by
      rw [State.places] at places
      rw [places] at delayed
      cases position <;> first | rfl | cases delayed
    subst isDelayed
    refine ⟨.ready, ?_, ?_⟩
    · have sound := tallies.sound
      rw [Course.Sound, tallies.position] at sound
      rw [State.advance, occurrence?, if_pos due]
      exact { tallies with position := rfl, sound := sound }
    · cases taken
      simp only [State.places, Store.withRedis, Redis.places_promoteScript,
        due, if_true] at places ⊢
      rw [places]
      rfl

/-- A process lets go of a job that is still there by one of these calls. -/
theorem letsGo_of_released
    (invariant : CourseInvariant deployment courses before)
    (pending : before.pending? pid = some call) {choice : Choice}
    (held : (before.claim pid).holds? = some jobId)
    (released : ((before.claim pid).after call
      (exec deployment choice call before.store).1).holds? ≠ some jobId)
    (stored : (exec deployment choice call before.store).2.db.jobs jobId =
      some row) :
    ∃ position, call.letsGo? = some (jobId, position) := by
  have claims := invariant.claims pending
  cases call with
  | ack id | retryLater id time | deadLetter id =>
      rcases claims with claimed | claimed
      · rw [claimed] at held
        cases held
        exact ⟨_, rfl⟩
      · exact absurd claimed (invariant.unoverruled pid id)
  | push id =>
      rcases claims with claimed | claimed <;>
      · rw [claimed] at held
        cases held
        exact ⟨_, rfl⟩
  | pushDelayed id time =>
      rw [show before.claim pid = _ from claims] at held
      cases held
      exact ⟨_, rfl⟩
  | brpoplpush | popDlq | insertJob input =>
      rw [show before.claim pid = .none from claims] at held
      cases held
  | zaddLease id expiry =>
      rw [show before.claim pid = .popped id from claims] at held
      cases held
      exact absurd rfl released
  | resetForReplay id =>
      rw [show before.claim pid = .replaying id from claims] at held released
      cases held
      rcases before.store.db.resetForReplay_cases choice.now jobId with
        ⟨was, done⟩ | ⟨old, was, done⟩
      · simp only [exec, done, Store.withDb, was] at stored
        cases stored
      · simp only [exec, done] at released
        exact absurd rfl released
  | _ => exact absurd held released

/-- The places of a job that its process lets go of. -/
theorem places_of_letsGo
    (invariant : CourseInvariant deployment courses before)
    (pending : before.pending? pid = some call) {position : Position}
    (letsGo : call.letsGo? = some (jobId, position))
    (outcome : Except AppError call.Reply) :
    call.moves jobId (before.places jobId) outcome = position.places := by
  have claims := invariant.claims pending
  have custody := invariant.rows.queue.custody jobId
  have once := custody.sound.once
  have leased := custody.sound.leased
  have works : before.claim pid = .reserved jobId →
      (before.places jobId).inflight = 1 ∧ (before.places jobId).leases = 1 :=
    fun reserved => (custody.fits_of reserved rfl).2
  have absent : before.claim pid = .inserted jobId ∨
      before.claim pid = .replaying jobId →
        (before.places jobId).copies = 0 := by
    rintro (inserted | replaying)
    · exact (custody.fits_of inserted rfl).2
    · exact (custody.fits_of replaying rfl).2
  generalize before.places jobId = places at *
  obtain ⟨ready, inflight, leases, delayed, dlq⟩ := places
  simp only [Places.copies] at once leased works absent
  cases call with
  | ack id | retryLater id time | deadLetter id =>
      cases letsGo
      have reserved := claims.resolve_right (invariant.unoverruled pid jobId)
      have held := works reserved
      simp [Call.moves, Places.release, Position.places]
      omega
  | push id =>
      cases letsGo
      have gone := absent claims
      simp [Call.moves, Position.places]
      omega
  | pushDelayed id time =>
      cases letsGo
      have gone := absent (.inl claims)
      simp [Call.moves, Position.places]
      omega
  | _ => cases letsGo

/-- The row and the records of a job that its process lets go of are those of
its course. -/
theorem tallies_of_letsGo
    (invariant : CourseInvariant deployment courses before)
    (pending : before.pending? pid = some call) {choice : Choice}
    {position : Position} (letsGo : call.letsGo? = some (jobId, position))
    (stored : before.store.db.jobs jobId = some row) :
    Tallies deployment.maxAttempts position row (before.records jobId)
      (before.advance deployment (.call pid choice) courses jobId) := by
  have claims := invariant.claims pending
  have permits := invariant.permits pending
  rw [advance_call pending]
  have reserved : before.claim pid = .reserved jobId ∨
      before.claim pid = .superseded jobId →
        (before.claim pid).job? = some jobId := by
    rintro (claimed | claimed) <;> rw [claimed] <;> rfl
  have placing : before.claim pid = .inserted jobId ∨
      before.claim pid = .replaying jobId →
        (before.claim pid).job? = some jobId := by
    rintro (claimed | claimed) <;> rw [claimed] <;> rfl
  cases call with
  | ack id | retryLater id time | deadLetter id =>
      cases letsGo
      rw [courseView_of_job (reserved claims)] at permits
      exact permits row stored
  | push id =>
      cases letsGo
      rw [courseView_of_job (placing claims)] at permits
      simp only [exec, Call.occurrence?, if_true]
      exact permits row stored
  | pushDelayed id time =>
      cases letsGo
      rw [courseView_of_job (placing (.inl claims))] at permits
      simp only [exec, Call.occurrence?, if_true]
      exact permits row stored
  | _ => cases letsGo

/-- Letting go of a job leaves its row and its records alone. -/
theorem spared_of_letsGo {choice : Choice} {position : Position}
    (letsGo : call.letsGo? = some (jobId, position)) :
    (exec deployment choice call before.store).2.db = before.store.db := by
  cases call <;> first | rfl | cases letsGo

private theorem tallies_of_step
    (invariant : CourseInvariant deployment courses before)
    (steady : Steady deployment before action)
    (taken : WebhookDelivery.step deployment before action = some after)
    (unheld : after.Unheld jobId)
    (stored : after.store.db.jobs jobId = some row) :
    ∃ position, Tallies deployment.maxAttempts position row
        (after.records jobId)
        (before.advance deployment action courses jobId) ∧
      after.places jobId = position.places := by
  by_cases apart : Apart before action jobId
  · exact invariant.tallies_of_apart steady taken apart unheld stored
  · simp only [Apart, not_forall, not_not] at apart
    obtain ⟨pid, performs, held⟩ := apart
    obtain ⟨call, pending⟩ := pending_of_performer? taken performs
    obtain ⟨choice, rfl, store, released⟩ := invariant.held_of_call steady
      taken performs pending unheld stored
    rw [store] at stored
    obtain ⟨position, letsGo⟩ := invariant.letsGo_of_released pending held
      released stored
    have spared := @spared_of_letsGo deployment before call jobId choice
      position letsGo
    rw [spared] at stored
    refine ⟨position, ?_, ?_⟩
    · rw [State.records, store, spared]
      exact invariant.tallies_of_letsGo pending letsGo stored
    · rw [State.places, store, exec_places]
      exact invariant.places_of_letsGo pending letsGo _

/-- Nothing has happened to a job whose id has not been issued. -/
theorem advance_of_unissued
    (invariant : CourseInvariant deployment courses before)
    (unissued : jobId ∉ before.store.db.issued) :
    before.advance deployment action courses jobId = .fresh := by
  have custody := invariant.rows.queue.custody jobId
  have apart : Apart before action jobId := fun pid _ held =>
    unissued (custody.issued_of_claim held)
  rcases invariant.occurrence_of_apart apart with none | ⟨_, _, _, due⟩
  · rw [State.advance, none]
    exact (invariant.unissued unissued).1
  · have delayed := Redis.delayed_of_mem_range due
    refine absurd (custody.issued_of_copies ?_) unissued
    simp only [State.places, Places.copies]
    omega

/-- A job is delivered only while it has attempts left. -/
theorem left_of_delivered
    (invariant : CourseInvariant deployment courses before)
    (steady : Steady deployment before action) {status : Option Nat}
    (delivered : occurrence? deployment jobId before action =
      some (.delivered status))
    (stored : before.store.db.jobs jobId = some row) :
    (courses jobId).attempts < deployment.maxAttempts := by
  cases action with
  | call pid choice =>
      obtain ⟨call, pending, occurs⟩ := Option.bind_eq_some_iff.mp delivered
      have held := invariant.holds_of_occurrence pending occurs
      have permits := invariant.permits pending
      rw [courseView_of_job (Claim.job?_of_holds? held)] at permits
      obtain ⟨request, rfl⟩ := Call.fetch_of_delivered occurs
      exact permits.2 row stored
  | promote nowMs batchSize =>
      rw [occurrence?] at delivered
      split at delivered <;> cases delivered
  | failLate pid choice failure => exact steady.2.elim
  | _ => cases delivered

private theorem attempts_of_advance
    (invariant : CourseInvariant deployment courses before)
    (steady : Steady deployment before action)
    (stored : before.store.db.jobs jobId = some row) :
    (before.advance deployment action courses jobId).attempts ≤
      deployment.maxAttempts := by
  have within := (invariant.within stored).1
  unfold State.advance
  split
  next occurrence occurs =>
    rw [Course.next_attempts]
    cases occurrence with
    | delivered status =>
        exact invariant.left_of_delivered steady occurs stored
    | reset => exact Nat.zero_le _
    | ready | delayed | deferred => exact within
  · exact within

private theorem within_of_step
    (invariant : CourseInvariant deployment courses before)
    (steady : Steady deployment before action)
    (taken : WebhookDelivery.step deployment before action = some after)
    (stored : after.store.db.jobs jobId = some row) :
    (before.advance deployment action courses jobId).attempts ≤
        deployment.maxAttempts ∧
      row.maxAttempts = deployment.maxAttempts := by
  have within := fun {row} => @attempts_of_advance _ _ _ _ jobId row
    invariant steady
  cases row_of_step invariant.rows.queue (invariant.unoverruled.quiet action)
    taken stored with
  | kept was => exact ⟨within was, (invariant.within was).2⟩
  | inserted input now unissued payload new =>
      rw [invariant.advance_of_unissued unissued, new]
      exact ⟨Nat.zero_le _, rfl⟩
  | updated pid update old now _ _ _ _ was new =>
      rw [new]
      exact ⟨within was, (invariant.within was).2⟩
  | reset pid old now _ _ _ was new =>
      rw [new]
      exact ⟨within was, (invariant.within was).2⟩

private theorem unissued_of_step
    (invariant : CourseInvariant deployment courses before)
    (taken : WebhookDelivery.step deployment before action = some after)
    (unissued : jobId ∉ after.store.db.issued) :
    before.advance deployment action courses jobId = .fresh ∧
      after.records jobId = 0 := by
  have unissuedBefore : jobId ∉ before.store.db.issued := fun known =>
    unissued (issued_of_step taken known)
  have none := (invariant.unissued unissuedBefore).2
  refine ⟨invariant.advance_of_unissued unissuedBefore, ?_⟩
  cases steps_of_step taken with
  | @performed _ pid choice process call next rescue resumed found running
      connected resumes =>
      have pending := State.pending?_of_running found running
      rw [State.records, State.perform_store, exec_records _ _ _ _ pid, if_neg]
      · exact none
      · intro recorded
        have held := invariant.holds_of_recorded pending recorded
        exact unissuedBefore
          ((invariant.rows.queue.custody jobId).issued_of_claim held)
  | @deleted id =>
      have absent : before.store.db.attemptsOf jobId = [] :=
        List.length_eq_zero_iff.mp none
      have fewer : (before.store.db.deleteWebhook id).attemptsOf jobId ⊆
          before.store.db.attemptsOf jobId := by
        intro record member
        simp only [Postgres.attemptsOf, Postgres.deleteWebhook,
          List.mem_filter] at member ⊢
        exact ⟨member.1.1, member.2⟩
      rw [absent] at fewer
      exact List.length_eq_zero_iff.mpr (List.subset_nil.mp fewer)
  | _ => exact none

private theorem registered_of_step
    (invariant : CourseInvariant deployment courses before)
    (taken : WebhookDelivery.step deployment before action = some after)
    (stored : after.store.db.jobs jobId = some row) :
    ∃ webhook, after.store.db.webhooks row.webhookId = some webhook := by
  cases steps_of_step taken with
  | @performed _ pid choice process call =>
      rw [State.perform_store, exec_webhooks]
      rw [State.perform_store] at stored
      rcases exec_jobs_cases deployment choice call before.store jobId with
        same | ⟨update, old, _, _, was, _, now⟩ | ⟨old, _, was, now⟩ |
          ⟨input, rfl, unissued, issued, payload, _, now⟩
      · exact invariant.registered (same.symm.trans stored)
      · cases now.symm.trans stored
        have registered := invariant.registered was
        exact registered
      · cases now.symm.trans stored
        have registered := invariant.registered was
        exact registered
      · cases now.symm.trans stored
        rcases before.store.db.insertJob_cases deployment.jsonb
          deployment.maxAttempts choice.uuid choice.now input with
          ⟨failure, raised⟩ | ⟨_, _, _, registered, _⟩
        · simp only [exec, raised] at issued
          exact absurd issued unissued
        · exact Option.isSome_iff_exists.mp registered
  | @registered webhook unused =>
      obtain ⟨found, is⟩ := invariant.registered stored
      by_cases same : row.webhookId = webhook.id
      · exact ⟨webhook, by
          rw [same]
          exact Function.update_self ..⟩
      · exact ⟨found, (Function.update_of_ne same ..).trans is⟩
  | @deleted id =>
      obtain ⟨was, survives⟩ := Option.filter_eq_some_iff.mp stored
      obtain ⟨found, is⟩ := invariant.registered was
      exact ⟨found, (Function.update_of_ne
        (of_decide_eq_true survives) ..).trans is⟩
  | start | failed | crashed | shutdown | promoted | reaped | ticked =>
      exact invariant.registered stored

private theorem secret_of_step
    (invariant : CourseInvariant deployment courses before)
    (steady : Steady deployment before action)
    (taken : WebhookDelivery.step deployment before action = some after)
    {id : WebhookId} {webhook : WebhookRow}
    (found : after.store.db.webhooks id = some webhook) :
    webhook.secret ≠ "" := by
  cases steps_of_step taken with
  | performed =>
      rw [State.perform_store, exec_webhooks] at found
      exact invariant.secret found
  | @registered row unused =>
      have found : Function.update before.store.db.webhooks row.id (some row)
          id = some webhook := found
      rw [Function.update_apply] at found
      split at found
      · cases found
        exact steady.2
      · exact invariant.secret found
  | @deleted gone =>
      have found : Function.update before.store.db.webhooks gone none
          id = some webhook := found
      rw [Function.update_apply] at found
      split at found
      · cases found
      · exact invariant.secret found
  | start | failed | crashed | shutdown | promoted | reaped | ticked =>
      exact invariant.secret found

/-- Steady steps keep every job on its course. -/
theorem step (invariant : CourseInvariant deployment courses before)
    (positive : 0 < deployment.maxAttempts)
    (steady : Steady deployment before action)
    (taken : WebhookDelivery.step deployment before action = some after) :
    CourseInvariant deployment (before.advance deployment action courses)
      after where
  rows := invariant.rows.step (invariant.unoverruled.quiet action)
    (fun _ => trivial) taken
  unoverruled := invariant.unoverruled.step steady.1 taken
  disciplined := invariant.disciplined.carried taken
    (fun _ _ _ _ => CourseDiscipline.main_follows positive _ ⟨rfl, rfl⟩)
    (invariant.carries steady taken)
  tallies stored unheld := invariant.tallies_of_step steady taken unheld stored
  within stored := invariant.within_of_step steady taken stored
  unissued unissued := invariant.unissued_of_step taken unissued
  registered stored := invariant.registered_of_step taken stored
  secret found := invariant.secret_of_step steady taken found

end CourseInvariant

end WebhookDelivery
