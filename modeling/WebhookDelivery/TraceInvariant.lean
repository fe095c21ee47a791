import WebhookDelivery.TracedWorkers

/-!
# The history of a run, process by process

Every process makes its calls in the order its program prescribes, in all runs
of the system: the calls of one process are those of the history that carry
its name.
-/

namespace WebhookDelivery

open Concurrency

/-- The calls a process has completed, latest first. -/
def State.own (state : State) (pid : Pid) : List Event :=
  state.history.filter fun event => decide (event.pid = pid)

/-- The role a process was started in. -/
def State.role? (state : State) (pid : Pid) : Option Role :=
  (state.processes pid).map Process.role

theorem State.role?_of_found {state : State} {pid : Pid} {process : Process}
    (found : state.processes pid = some process) :
    state.role? pid = some process.role := by
  rw [State.role?, found]
  rfl

def State.trace (pid : Pid) (_ : Claim) (state : State) : Trace where
  role := state.role? pid
  own := state.own pid
  excused := False

/-- The reply to a call that has taken effect is lost. -/
def Action.late : Action → Bool
  | .failLate _ _ _ => true
  | _ => false

variable {strict : Prop} {deployment : Deployment} {before after : State}
  {action : Action}

/-- The only step that adds to the history lets a process perform a call. -/
theorem history_of_step
    (taken : step deployment before action = some after) :
    after.history = before.history ∧ action.performer? = none ∨
      (after.history = before.history ∧ ∃ pid failure,
        action = .fail pid failure) ∨
      ∃ pid choice call, action.performer? = some pid ∧
        before.pending? pid = some call ∧
        after.store = (exec deployment choice call before.store).2 ∧
        after.history = ⟨pid, call, (exec deployment choice call
          before.store).1⟩ :: before.history := by
  cases steps_of_step taken with
  | @performed _ pid choice process call next rescue resumed found running
      connected resumes =>
      exact .inr (.inr ⟨pid, choice, call, resumes.performer?.1,
        State.pending?_of_running found running, rfl, rfl⟩)
  | failed => exact .inr (.inl ⟨rfl, _, _, rfl⟩)
  | start | crashed | shutdown | promoted | reaped | ticked | registered
  | deleted => exact .inl ⟨rfl, rfl⟩

/-- The calls of a process that performs one. -/
theorem own_cons {state : State} {pid : Pid} {event : Event}
    {history : List Event} (same : state.history = event :: history) :
    state.own pid = if event.pid = pid then
      event :: history.filter fun event => decide (event.pid = pid)
      else history.filter fun event => decide (event.pid = pid) := by
  unfold State.own
  rw [same, List.filter_cons]
  simp only [decide_eq_true_eq]

/-- Other processes do not add to the calls of a process. -/
theorem own_of_other {pid : Pid}
    (taken : step deployment before action = some after)
    (other : action.performer? ≠ some pid) :
    after.own pid = before.own pid := by
  rcases history_of_step taken with ⟨same, _⟩ | ⟨same, _⟩ |
    ⟨actor, choice, call, performs, _, _, same⟩
  · rw [State.own, State.own, same]
  · rw [State.own, State.own, same]
  · rw [own_cons same, if_neg]
    · rfl
    · rintro rfl
      exact other performs

theorem own_of_others_call {pid actor : Pid}
    (taken : step deployment before action = some after)
    (performs : action.performer? = some actor) (distinct : pid ≠ actor) :
    after.own pid = before.own pid := by
  apply own_of_other taken
  rw [performs]
  exact fun same => distinct (Option.some.inj same).symm

/-- The process that performs a call adds it to its calls. -/
theorem own_of_performer {pid : Pid}
    (taken : step deployment before action = some after)
    (performs : action.performer? = some pid) :
    ∃ choice call, before.pending? pid = some call ∧
      after.store = (exec deployment choice call before.store).2 ∧
      after.own pid = ⟨pid, call, (exec deployment choice call
        before.store).1⟩ :: before.own pid := by
  rcases history_of_step taken with ⟨_, none⟩ | ⟨_, other, _, fails⟩ |
    ⟨actor, choice, call, acts, pending, store, same⟩
  · rw [performs] at none
    cases none
  · rw [fails] at performs
    cases performs
  · rw [performs] at acts
    cases acts
    exact ⟨choice, call, pending, store, (own_cons same).trans (if_pos rfl)⟩

section Done

variable {Value : Type} {what : Event → Option Value} {value : Value}
  {pid : Pid}

/-- A process that has done something in a step had done it before or performs
it in the step. -/
theorem did_of_step (taken : step deployment before action = some after)
    (done : did (after.own pid) what value) :
    did (before.own pid) what value ∨ ∃ choice call,
      action.performer? = some pid ∧ before.pending? pid = some call ∧
        after.store = (exec deployment choice call before.store).2 ∧
        what ⟨pid, call, (exec deployment choice call before.store).1⟩ =
          some value := by
  by_cases performs : action.performer? = some pid
  · obtain ⟨choice, call, pending, store, own⟩ :=
      own_of_performer taken performs
    rw [own, did_cons] at done
    rcases done with now | earlier
    · exact .inr ⟨choice, call, performs, pending, store, now⟩
    · exact .inl earlier
  · rw [own_of_other taken performs] at done
    exact .inl done

/-- What a process has done stays done. -/
theorem did_mono (taken : step deployment before action = some after)
    (done : did (before.own pid) what value) :
    did (after.own pid) what value := by
  by_cases performs : action.performer? = some pid
  · obtain ⟨choice, call, _, _, own⟩ := own_of_performer taken performs
    rw [own, did_cons]
    exact .inr done
  · rwa [own_of_other taken performs]

/-- What has been done has been done by some process. -/
theorem did_history_iff {state : State} :
    did state.history what value ↔
      ∃ pid, did (state.own pid) what value := by
  constructor
  · rintro ⟨event, member, same⟩
    refine ⟨event.pid, event, List.mem_filter.mpr ⟨member, ?_⟩, same⟩
    exact decide_eq_true rfl
  · rintro ⟨pid, event, member, same⟩
    exact ⟨event, List.mem_of_mem_filter member, same⟩

theorem did_history_mono (taken : step deployment before action = some after)
    (done : did before.history what value) :
    did after.history what value := by
  rw [did_history_iff] at done ⊢
  obtain ⟨pid, done⟩ := done
  exact ⟨pid, did_mono taken done⟩

end Done

/-! ## What a call tells -/

namespace Event

variable {pid : Pid} {choice : Choice} {call : Call} {store : Store}
  {jobId : JobId}

/-- A job is inserted under an id that has not been issued before. -/
theorem inserted?_exec {job : Job}
    (inserts : inserted? ⟨pid, call, (exec deployment choice call store).1⟩ =
      some job) :
    ∃ input, call = .insertJob input ∧ job.id ∉ store.db.issued ∧
      job.id ∈ (exec deployment choice call store).2.db.issued ∧
      ∃ payload, deployment.jsonb input.payload = some payload ∧
        (exec deployment choice call store).2.db.jobs job.id =
          some (input.newRow deployment.maxAttempts job.id choice.now
            payload) ∧
        job = (input.newRow deployment.maxAttempts job.id choice.now
          payload).toJob := by
  cases call with
  | insertJob input =>
      rcases store.db.insertJob_cases deployment.jsonb deployment.maxAttempts
        choice.uuid choice.now input with
        ⟨failure, raised⟩ | ⟨payload, kept, unissued, _, done⟩
      · simp only [exec, raised] at inserts
        cases inserts
      · simp only [exec, done] at inserts ⊢
        cases inserts
        refine ⟨input, rfl, unissued, List.mem_cons_self, payload, kept, ?_,
          rfl⟩
        exact Function.update_self ..
  | _ => cases inserts

theorem missed?_exec
    (misses : missed? ⟨pid, call, (exec deployment choice call store).1⟩ =
      some jobId) :
    call = .findJob jobId ∧ store.db.jobs jobId = none := by
  cases call with
  | findJob id =>
      simp only [exec, Postgres.findJob] at misses
      cases found : store.db.jobs id with
      | none =>
          rw [found] at misses
          cases misses
          exact ⟨rfl, found⟩
      | some row =>
          rw [found] at misses
          cases misses
  | _ => cases misses

theorem slotRead?_exec {slot : String}
    (reads : slotRead? ⟨pid, call, (exec deployment choice call store).1⟩ =
      some (slot, jobId)) :
    store.redis.getSlot slot = some (.job jobId) := by
  cases call with
  | getSlot key =>
      simp only [exec] at reads
      cases value : store.redis.getSlot key with
      | none =>
          rw [value] at reads
          cases reads
      | some found =>
          rw [value] at reads
          cases found with
          | pending => cases reads
          | job id =>
              cases reads
              exact value
  | _ => cases reads

end Event

/-! ## Roles -/

/-- Processes keep their roles. -/
theorem role_of_step {pid : Pid} {role : Role}
    (taken : step deployment before action = some after)
    (known : before.role? pid = some role) : after.role? pid = some role := by
  obtain ⟨process, found, rfl⟩ := Option.map_eq_some_iff.mp known
  have updated : ∀ {actor : Pid} {now : Process} {processes},
      processes = Function.update before.processes actor (some now) →
      (actor = pid → now.role = process.role) →
        (processes pid).map Process.role = some process.role := by
    rintro actor now _ rfl same
    by_cases own : pid = actor
    · subst own
      rw [Function.update_self]
      exact congrArg some (same rfl)
    · rw [Function.update_of_ne own, found]
      rfl
  have unique : ∀ {actor : Pid} {other : Process},
      before.processes actor = some other → actor = pid →
        other = process := by
    rintro actor other foundToo rfl
    rw [found] at foundToo
    exact (Option.some_inj.mp foundToo).symm
  cases steps_of_step taken with
  | start unused =>
      refine updated rfl fun same => ?_
      rw [same, found] at unused
      cases unused
  | performed foundToo running connected resumes =>
      refine updated rfl fun same => ?_
      rw [← unique foundToo same]
      cases resumes <;> exact Process.proceed_role
  | failed foundToo running =>
      refine updated rfl fun same => ?_
      rw [← unique foundToo same]
      exact Process.proceed_role
  | crashed foundToo live =>
      refine updated rfl fun same => ?_
      rw [← unique foundToo same]
      rfl
  | @shutdown actor other foundToo =>
      refine updated rfl fun same => ?_
      rw [← unique foundToo same]
      unfold Process.shutdown
      split <;> rfl
  | reaped => simp [State.role?, State.reap, found]
  | promoted | ticked | registered | deleted => exact known

/-- A process that is not new has the role it had. -/
theorem role_of_other {pid : Pid}
    (taken : step deployment before action = some after)
    (other : action.actor? ≠ some pid) :
    after.role? pid = before.role? pid := by
  cases known : before.role? pid with
  | some role => exact role_of_step taken known
  | none =>
      rw [State.role?, Option.map_eq_none_iff] at known ⊢
      by_contra present
      obtain ⟨now, found⟩ := Option.ne_none_iff_exists'.mp present
      obtain ⟨process, foundBefore, _⟩ := status_of_other taken other found
      rw [known] at foundBefore
      cases foundBefore

open TraceDiscipline

/-- Every process makes its calls in order, unused process ids have made none,
and a request that has returned a job has been answered. -/
structure TraceInvariant (strict : Prop) (state : State) : Prop where
  disciplined : state.Disciplined (traceDiscipline strict) State.trace Returns
  unused : ∀ {pid}, state.processes pid = none → state.own pid = []
  balanced : ∀ pid, Balanced (state.own pid)
  returned : ∀ {pid process job}, state.processes pid = some process →
    process.status = .returned (.ok (.enqueued job)) →
      ∃ input, process.role = .enqueue input ∧
        Answered input job (state.own pid)

/-- What the order of calls says of the call a process is suspended at. -/
theorem TraceInvariant.allows {state : State}
    (invariant : TraceInvariant strict state) {pid : Pid} {call : Call}
    (pending : state.pending? pid = some call) :
    ∃ role, state.role? pid = some role ∧
      role.Allows strict (state.own pid) call := by
  exact (invariant.disciplined.allowed pending).resolve_left id

/-- A process that has made a call has a role. -/
theorem TraceInvariant.role_of_did {state : State}
    (invariant : TraceInvariant strict state) {Value : Type}
    {what : Event → Option Value} {value : Value} {pid : Pid}
    (done : did (state.own pid) what value) :
    ∃ role, state.role? pid = some role := by
  cases found : state.processes pid with
  | none =>
      rw [invariant.unused found] at done
      exact (did_nil _ _ done).elim
  | some process =>
      exact ⟨process.role, State.role?_of_found found⟩

/-- The order of calls looks at roles and own calls alone. -/
theorem traceDiscipline_respects (invariant : TraceInvariant strict before)
    (kept : strict → action.late = false)
    (taken : step deployment before action = some after) :
    Respects deployment (traceDiscipline strict) State.trace before action
      after where
  performed {pid choice process call next rescue resumed} found running
      resumes same := by
    have known := State.role?_of_found found
    refine ⟨(role_of_step taken known).trans known.symm, rfl, ⟨pid, ?_⟩,
      exec_answers _ _ _ _⟩
    subst same
    exact (own_cons rfl).trans (if_pos rfl)
  unanswered {pid call choice failure} pending same := by
    refine ⟨trivial, ?_⟩
    have lax : ¬strict := fun strictly => by
      have timely := kept strictly
      rw [same] at timely
      cases timely
    simp only [State.trace, lax, false_and, or_false]
  failed {pid call failure} pending same := by
    refine ⟨trivial, ?_⟩
    obtain ⟨role, known, allows⟩ := invariant.allows pending
    have unresolved : ¬(strict ∧ (∃ input,
        some role = some (Role.enqueue input)) ∧
          ∃ slot, did (before.own pid) Event.resolved? slot) := by
      rintro ⟨strictly, ⟨input, request⟩, slot, resolved⟩
      cases request
      exact allows.1 strictly slot resolved
    have quiet : action.performer? ≠ some pid := by
      rw [same]
      simp [Action.performer?]
    simp only [State.trace, own_of_other taken quiet,
      role_of_step taken known, known, unresolved, or_false]
  others {pid} other := by
    have quiet : action.performer? ≠ some pid := fun performs =>
      other (Action.actor?_of_performer? performs)
    simp only [State.trace, own_of_other taken quiet,
      role_of_other taken other]

namespace TraceInvariant

theorem initial : TraceInvariant strict State.initial where
  disciplined _ _ _ found := by cases found
  unused _ := rfl
  balanced _ _ := le_rfl
  returned found := by cases found

/-- Only a worker that has recorded an attempt spends it. -/
theorem spentOf_lt_of_spends {role : Role} {own : List Event} {pid : Pid}
    {call : Call} {outcome : Except AppError call.Reply} {jobId : JobId}
    (allows : role.Allows strict own call)
    (spends : Event.spent? ⟨pid, call, outcome⟩ = some jobId) :
    spentOf own jobId < recordedOf own jobId := by
  unfold Event.spent? at spends
  split at spends
  next update row same =>
    cases same
    split at spends
    next increments =>
      cases spends
      cases role with
      | enqueue input => exact allows.2.elim
      | replay limit => exact allows.elim
      | worker => exact allows.2 increments
    · cases spends
  · cases spends

/-- No call unbalances the calls of its process. -/
private theorem balanced_of_step (invariant : TraceInvariant strict before)
    (taken : step deployment before action = some after) (pid : Pid) :
    Balanced (after.own pid) := by
  by_cases performs : action.performer? = some pid
  · obtain ⟨choice, call, pending, _, own⟩ := own_of_performer taken performs
    obtain ⟨role, _, allows⟩ := invariant.allows pending
    rw [own]
    intro jobId
    have before' := invariant.balanced pid jobId
    show spentOf (_ :: before.own pid) jobId ≤
      recordedOf (_ :: before.own pid) jobId
    simp only [spentOf, recordedOf, List.countP_cons] at before' ⊢
    by_cases spends : Event.spent? ⟨pid, call, (exec deployment choice call
        before.store).1⟩ = some jobId
    · have ahead := spentOf_lt_of_spends allows spends
      simp only [spentOf, recordedOf] at ahead
      simp only [spends, decide_true, if_true]
      omega
    · simp only [spends, decide_false, Bool.false_eq_true, if_false]
      omega
  · rw [own_of_other taken performs]
    exact invariant.balanced pid

/-- A process that starts has made no call. -/
theorem own_of_start (invariant : TraceInvariant strict before)
    {pid : Pid} {role : Role}
    (taken : WebhookDelivery.step deployment before (.start pid role) =
      some after) : after.own pid = [] := by
  rw [own_of_other taken (by simp [Action.performer?])]
  cases steps_of_step taken with
  | start unused => exact invariant.unused unused
  | performed _ _ _ resumes =>
      have acts := resumes.performer?.1
      cases acts

/-- A program that starts has the calls of its process behind it. -/
private theorem fresh_of_step (invariant : TraceInvariant strict before)
    (taken : WebhookDelivery.step deployment before action = some after) (pid : Pid)
    (process : Process) (found : after.processes pid = some process)
    (starts : action = .start pid process.role ∨ process.role = .worker) :
    (traceDiscipline strict).Follows Returns (process.role.main deployment)
      (State.trace pid .none after) := by
  have same := State.role?_of_found found
  have balanced := invariant.balanced_of_step taken pid
  apply main_follows deployment process.role same
  rcases starts with started | worker
  · have none : after.own pid = [] := by
      rw [started] at taken
      exact invariant.own_of_start taken
    cases role : process.role with
    | enqueue input => exact none
    | worker => exact balanced
    | replay limit => trivial
  · rw [worker]
    exact balanced

/-- A process that does not exist has not made a call in the step either. -/
private theorem unused_of_step (invariant : TraceInvariant strict before)
    (taken : step deployment before action = some after) {pid : Pid}
    (unused : after.processes pid = none) : after.own pid = [] := by
  have unusedBefore : before.processes pid = none := by
    by_contra used
    obtain ⟨process, found⟩ := Option.ne_none_iff_exists'.mp used
    have known := State.role?_of_found found
    have stays := role_of_step taken known
    rw [State.role?, unused] at stays
    cases stays
  by_cases performs : action.performer? = some pid
  · obtain ⟨choice, call, pending, _⟩ := own_of_performer taken performs
    rw [State.pending?, unusedBefore] at pending
    cases pending
  · rw [own_of_other taken performs]
    exact invariant.unused unusedBefore

/-- A process that has returned makes no further call. -/
theorem own_of_returned {pid : Pid} {process : Process}
    {outcome : Except AppError Result}
    (taken : step deployment before action = some after)
    (found : before.processes pid = some process)
    (returned : process.status = .returned outcome) :
    after.own pid = before.own pid := by
  refine own_of_other taken fun performs => ?_
  obtain ⟨choice, call, pending, _⟩ := own_of_performer taken performs
  obtain ⟨now, next, rescue, foundNow, running⟩ :=
    State.running_of_pending? pending
  rw [found] at foundNow
  cases foundNow
  rw [returned] at running
  cases running

theorem step (invariant : TraceInvariant strict before)
    (kept : strict → action.late = false)
    (taken : WebhookDelivery.step deployment before action = some after) :
    TraceInvariant strict after where
  disciplined := invariant.disciplined.step taken
    (invariant.fresh_of_step taken)
    (traceDiscipline_respects invariant kept taken)
  unused := invariant.unused_of_step taken
  balanced := invariant.balanced_of_step taken
  returned {pid now job} foundNow returned := by
    rcases invariant.disciplined.returned taken
        (invariant.fresh_of_step taken)
        (traceDiscipline_respects invariant kept taken) foundNow returned with
      ⟨process, found, already⟩ | ⟨claim, returns⟩
    · obtain ⟨input, role, answered⟩ := invariant.returned found already
      have known := State.role?_of_found found
      have stays := role_of_step taken known
      rw [State.role?, foundNow] at stays
      refine ⟨input, (Option.some.inj stays).trans role, ?_⟩
      rw [own_of_returned taken found already]
      exact answered
    · obtain ⟨input, unexcused⟩ := returns job rfl
      obtain ⟨known, answered⟩ := unexcused.resolve_left id
      refine ⟨input, ?_, answered⟩
      change after.role? pid = _ at known
      rw [State.role?, foundNow] at known
      exact Option.some.inj known

end TraceInvariant

end WebhookDelivery
