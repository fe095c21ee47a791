import WebhookDelivery.System
import WebhookDelivery.Library.Discipline

/-!
# What a step of the system does

`step` inverted once, and the rule by which a discipline that every single
process keeps to is kept by the whole system.
-/

namespace WebhookDelivery

open Concurrency

namespace Action

/-- The process whose program an action starts, carries on or ends. -/
def actor? : Action → Option Pid
  | .start pid _ | .call pid _ | .fail pid _ | .failLate pid _ _
  | .crash pid => some pid
  | _ => none

end Action

namespace State

variable (state : State)

@[simp]
theorem setProcess_store (pid : Pid) (process : Process) :
    (state.setProcess pid process).store = state.store :=
  rfl

theorem setProcess_self (pid : Pid) (process : Process) :
    (state.setProcess pid process).processes pid = some process :=
  Function.update_self ..

theorem setProcess_of_ne {pid other : Pid} (distinct : other ≠ pid)
    (process : Process) :
    (state.setProcess pid process).processes other = state.processes other :=
  Function.update_of_ne distinct ..

section Perform

variable (deployment : Deployment) (pid : Pid) (choice : Choice) (call : Call)
  (resumed : Except AppError call.Reply → Process)

@[simp]
theorem perform_store :
    (state.perform deployment pid choice call resumed).store =
      (exec deployment choice call state.store).2 :=
  rfl

theorem perform_self :
    (state.perform deployment pid choice call resumed).processes pid =
      some (resumed (exec deployment choice call state.store).1) :=
  Function.update_self ..

theorem perform_of_ne {other : Pid} (distinct : other ≠ pid) :
    (state.perform deployment pid choice call resumed).processes other =
      state.processes other :=
  Function.update_of_ne distinct ..

end Perform

theorem claim_of_found {state : State} {pid : Pid} {process : Process}
    (found : state.processes pid = some process) :
    state.claim pid = process.claim := by
  simp [claim, found]

theorem claim_of_unused {state : State} {pid : Pid}
    (unused : state.processes pid = none) : state.claim pid = .none := by
  simp [claim, unused]

theorem claim_congr {state other : State} {pid : Pid}
    (same : state.processes pid = other.processes pid) :
    state.claim pid = other.claim pid := by
  simp only [claim, same]

theorem pending?_of_running {state : State} {pid : Pid} {process : Process}
    {call : Call} {next : call.Reply → Async Result}
    {rescue : AppError → Async Result}
    (found : state.processes pid = some process)
    (running : process.status = .running (.call call next rescue)) :
    state.pending? pid = some call := by
  simp [pending?, found, Process.pending?, running, Program.request?]

theorem running_of_pending? {state : State} {pid : Pid} {call : Call}
    (pending : state.pending? pid = some call) :
    ∃ process next rescue, state.processes pid = some process ∧
      process.status = .running (.call call next rescue) := by
  obtain ⟨process, found, suspended⟩ := Option.bind_eq_some_iff.mp pending
  unfold Process.pending? at suspended
  split at suspended
  next program running =>
    cases program with
    | call request next rescue =>
        cases suspended
        exact ⟨process, next, rescue, found, running⟩
    | _ => cases suspended
  · cases suspended

theorem claim_setProcess_self (pid : Pid) (process : Process) :
    (state.setProcess pid process).claim pid = process.claim :=
  claim_of_found (state.setProcess_self pid process)

theorem claim_setProcess_of_ne {pid other : Pid} (distinct : other ≠ pid)
    (process : Process) :
    (state.setProcess pid process).claim other = state.claim other :=
  claim_congr (state.setProcess_of_ne distinct process)

/-- A process that keeps its claim or ends it leaves every other claim
alone. -/
theorem claim_setProcess {pid : Pid} {process : Process}
    (own : process.claim = state.claim pid ∨ process.claim = .none)
    (other : Pid) :
    (state.setProcess pid process).claim other = state.claim other ∨
      (state.setProcess pid process).claim other = .none := by
  by_cases same : other = pid
  · subst same
    rw [claim_setProcess_self]
    exact own
  · exact .inl (state.claim_setProcess_of_ne same process)

/-- The reaper acts on every claim alike. -/
theorem claim_reap (nowMs : Int) (batchSize : Nat) (pid : Pid) :
    (state.reap nowMs batchSize).claim pid =
      (state.claim pid).reaped
        (state.store.redis.leases.rangeByScore nowMs batchSize) := by
  simp only [claim, reap]
  cases state.processes pid <;> rfl

end State

/-- How a process goes on after a call that took effect. -/
inductive Resumes (deployment : Deployment) (pid : Pid) (choice : Choice)
    (process : Process) {call : Call} (next : call.Reply → Async Result)
    (rescue : AppError → Async Result) :
    Action → (Except AppError call.Reply → Process) → Prop
  | replied : Resumes deployment pid choice process next rescue
      (.call pid choice) (process.replied deployment next rescue)
  | unanswered {failure} (onStore : call.onStore) :
      Resumes deployment pid choice process next rescue
        (.failLate pid choice failure)
        (process.unanswered deployment (rescue failure))

/-- The steps of the system. -/
inductive Steps (deployment : Deployment) (before : State) :
    Action → State → Prop
  | start {pid role} (unused : before.processes pid = none) :
      Steps deployment before (.start pid role)
        (before.setProcess pid (.spawn deployment role))
  | performed {action pid choice process call next rescue resumed}
      (found : before.processes pid = some process)
      (running : process.status = .running (.call call next rescue))
      (connected : process.connected call)
      (resumes : Resumes deployment pid choice process next rescue action
        resumed) :
      Steps deployment before action
        (before.perform deployment pid choice call resumed)
  | failed {pid failure process call next rescue}
      (found : before.processes pid = some process)
      (running : process.status = .running (.call call next rescue)) :
      Steps deployment before (.fail pid failure)
        (before.setProcess pid
          (process.failed deployment (rescue failure)))
  | crashed {pid process} (found : before.processes pid = some process)
      (live : process.live) :
      Steps deployment before (.crash pid)
        (before.setProcess pid process.crash)
  | shutdown {pid process} (found : before.processes pid = some process) :
      Steps deployment before (.shutdown pid)
        (before.setProcess pid process.shutdown)
  | promoted {nowMs batchSize} :
      Steps deployment before (.promote nowMs batchSize)
        { before with
          store := before.store.withRedis
            (before.store.redis.promoteScript nowMs batchSize).2 }
  | reaped {nowMs batchSize} :
      Steps deployment before (.reap nowMs batchSize)
        (before.reap nowMs batchSize)
  | ticked {ms} :
      Steps deployment before (.tick ms)
        { before with
          store := before.store.withRedis
            { before.store.redis with
              clock := before.store.redis.clock + ms } }
  | registered {row} (unused : row.id ∉ before.store.db.issued) :
      Steps deployment before (.registerWebhook row)
        { before with
          store := before.store.withDb
            (before.store.db.insertWebhook row) }
  | deleted {id} :
      Steps deployment before (.deleteWebhook id)
        { before with
          store := before.store.withDb (before.store.db.deleteWebhook id) }

variable {deployment : Deployment} {before after : State} {action : Action}

theorem steps_of_step
    (taken : step deployment before action = some after) :
    Steps deployment before action after := by
  cases action with
  | start pid role =>
      simp only [step] at taken
      split at taken
      · cases taken
      next unused =>
        cases taken
        exact .start unused
  | call pid choice =>
      simp only [step] at taken
      split at taken
      · cases taken
      next process found =>
        split at taken
        next call next rescue running =>
          split at taken
          next connected =>
            cases taken
            exact .performed found running connected .replied
          · cases taken
        · cases taken
  | fail pid failure =>
      simp only [step] at taken
      split at taken
      · cases taken
      next process found =>
        split at taken
        next call next rescue running =>
          split at taken
          · cases taken
            exact .failed found running
          · cases taken
        · cases taken
  | failLate pid choice failure =>
      simp only [step] at taken
      split at taken
      · cases taken
      next process found =>
        split at taken
        next call next rescue running =>
          split at taken
          next enabled =>
            rw [Bool.and_eq_true] at enabled
            cases taken
            exact .performed found running enabled.2 (.unanswered enabled.1)
          · cases taken
        · cases taken
  | crash pid =>
      simp only [step] at taken
      split at taken
      · cases taken
      next process found =>
        split at taken
        next program running =>
          cases taken
          exact .crashed found ⟨program, running⟩
        · cases taken
  | shutdown pid =>
      simp only [step] at taken
      split at taken
      · cases taken
      next process found =>
        cases taken
        exact .shutdown found
  | promote nowMs batchSize =>
      cases taken
      exact .promoted
  | reap nowMs batchSize =>
      cases taken
      exact .reaped
  | tick ms =>
      cases taken
      exact .ticked
  | registerWebhook row =>
      simp only [step] at taken
      split at taken
      · cases taken
      next unused =>
        cases taken
        exact .registered unused
  | deleteWebhook id =>
      cases taken
      exact .deleted

/-- The process whose pending call takes effect. -/
def Action.performer? : Action → Option Pid
  | .call pid _ | .failLate pid _ _ => some pid
  | _ => none

/-- The actor of a step is the process that performs its call. -/
theorem Action.actor?_of_performer? {pid : Pid}
    (performs : action.performer? = some pid) : action.actor? = some pid := by
  cases action <;> first | exact performs | cases performs

theorem Resumes.performer? {pid : Pid} {choice : Choice} {process : Process}
    {call : Call} {next : call.Reply → Async Result}
    {rescue : AppError → Async Result}
    {resumed : Except AppError call.Reply → Process}
    (resumes : Resumes deployment pid choice process next rescue action
      resumed) :
    action.performer? = some pid ∧ action.actor? = some pid := by
  cases resumes <;> exact ⟨rfl, rfl⟩

/-- A step that lets a process perform a call runs that call on the store. -/
theorem performed_of_performer? {pid : Pid} {call : Call}
    (taken : step deployment before action = some after)
    (performs : action.performer? = some pid)
    (pending : before.pending? pid = some call) :
    ∃ choice process next rescue resumed,
      before.processes pid = some process ∧
        process.status = .running (.call call next rescue) ∧
          Resumes deployment pid choice process next rescue action resumed ∧
            after = before.perform deployment pid choice call resumed := by
  cases steps_of_step taken with
  | @performed _ actor choice process call' next rescue resumed found running
      connected resumes =>
      rw [resumes.performer?.1] at performs
      cases performs
      rw [State.pending?_of_running found running] at pending
      cases pending
      exact ⟨choice, process, next, rescue, resumed, found, running, resumes,
        rfl⟩
  | _ => cases performs

/-! ## How a process goes on -/

namespace Process

variable {process : Process} {program continued : Async Result}
  {claim : Claim}

/-- A process that goes on runs the program it was resumed with, or starts
over. -/
theorem proceed_running
    (running : (process.proceed deployment program claim).status =
      .running continued) :
    (continued = program ∧
        (process.proceed deployment program claim).claim = claim) ∨
      (process.role = .worker ∧ continued = Role.main deployment .worker ∧
        (process.proceed deployment program claim).claim = .none) := by
  have ends : ∀ outcome,
      (process.finish deployment outcome).status = .running continued →
        process.role = .worker ∧ continued = Role.main deployment .worker ∧
          (process.finish deployment outcome).claim = .none := by
    intro outcome running
    unfold finish at running ⊢
    split at running
    next again =>
      cases running
      exact ⟨again.1, rfl, by simp [again]⟩
    · cases running
  cases program with
  | pure value => exact .inr (ends _ running)
  | throw failure => exact .inr (ends _ running)
  | call call next rescue =>
      cases running
      exact .inl ⟨rfl, rfl⟩

/-- A process that goes on keeps its claim or has none. -/
theorem proceed_claim :
    (process.proceed deployment program claim).claim = claim ∨
      (process.proceed deployment program claim).claim = .none := by
  have ends : ∀ outcome,
      (process.finish deployment outcome).claim = .none := by
    intro outcome
    unfold finish
    split <;> rfl
  cases program with
  | pure value => exact .inr (ends _)
  | throw failure => exact .inr (ends _)
  | call call next rescue => exact .inl rfl

@[simp]
theorem shutdown_status : process.shutdown.status = process.status := by
  unfold shutdown
  split <;> rfl

@[simp]
theorem shutdown_claim : process.shutdown.claim = process.claim := by
  unfold shutdown
  split <;> rfl

@[simp]
theorem shutdown_role : process.shutdown.role = process.role := by
  unfold shutdown
  split <;> rfl

@[simp]
theorem proceed_role :
    (process.proceed deployment program claim).role = process.role := by
  have ends : ∀ outcome,
      (process.finish deployment outcome).role = process.role := by
    intro outcome
    unfold finish
    split <;> rfl
  cases program with
  | pure value => exact ends _
  | throw failure => exact ends _
  | call call next rescue => rfl

@[simp]
theorem spawn_role (role : Role) : (spawn deployment role).role = role :=
  proceed_role

@[simp]
theorem proceed_severed :
    (process.proceed deployment program claim).severed = process.severed := by
  have ends : ∀ outcome,
      (process.finish deployment outcome).severed = process.severed := by
    intro outcome
    unfold finish
    split <;> rfl
  cases program with
  | pure value => exact ends _
  | throw failure => exact ends _
  | call call next rescue => rfl

/-- A process with a claim is suspended at a call. -/
def Coherent (process : Process) : Prop :=
  process.claim ≠ .none → ∃ (call : Call) (next : _) (rescue : _),
    process.status = .running (.call call next rescue)

theorem proceed_coherent :
    (process.proceed deployment program claim).Coherent := by
  have ends : ∀ outcome,
      (process.finish deployment outcome).Coherent := by
    intro outcome claimed
    unfold finish at claimed
    split at claimed <;> exact absurd rfl claimed
  cases program with
  | pure value => exact ends _
  | throw failure => exact ends _
  | call call next rescue => exact fun _ => ⟨call, next, rescue, rfl⟩

end Process

/-- Only the reaper acts on the claim of a process other than the actor. -/
theorem claim_of_other {pid : Pid}
    (taken : step deployment before action = some after)
    (other : action.actor? ≠ some pid) :
    after.claim pid = before.claim pid ∨
      ∃ nowMs batchSize, action = .reap nowMs batchSize ∧
        after.claim pid = (before.claim pid).reaped
          (before.store.redis.leases.rangeByScore nowMs batchSize) := by
  have distinct : ∀ {actor}, action.actor? = some actor → pid ≠ actor := by
    rintro actor acts rfl
    exact other acts
  cases steps_of_step taken with
  | start unused =>
      exact .inl (before.claim_setProcess_of_ne (distinct rfl) _)
  | performed found running connected resumes =>
      exact .inl (State.claim_congr (before.perform_of_ne _ _ _ _ _
        (distinct resumes.performer?.2)))
  | failed found running =>
      exact .inl (before.claim_setProcess_of_ne (distinct rfl) _)
  | crashed found live =>
      exact .inl (before.claim_setProcess_of_ne (distinct rfl) _)
  | @shutdown actor process found =>
      left
      by_cases own : pid = actor
      · subst own
        rw [before.claim_setProcess_self, Process.shutdown_claim,
          State.claim_of_found found]
      · exact before.claim_setProcess_of_ne own _
  | reaped => exact .inr ⟨_, _, rfl, before.claim_reap _ _ pid⟩
  | promoted | ticked | registered _ | deleted => exact .inl rfl

/-- Every process with a claim is suspended at a call. -/
def State.Coherent (state : State) : Prop :=
  ∀ pid process, state.processes pid = some process → process.Coherent

theorem State.Coherent.step (coherent : before.Coherent)
    (taken : WebhookDelivery.step deployment before action = some after) :
    after.Coherent := by
  intro pid now foundNow
  have updated : ∀ {processes : Pid → Option Process} {actor process},
      processes = Function.update before.processes actor (some process) →
      processes pid = some now → process.Coherent → now.Coherent := by
    rintro _ actor process rfl foundNow own
    by_cases same : pid = actor
    · subst same
      rw [Function.update_self] at foundNow
      cases foundNow
      exact own
    · rw [Function.update_of_ne same] at foundNow
      exact coherent pid now foundNow
  cases steps_of_step taken with
  | start unused => exact updated rfl foundNow Process.proceed_coherent
  | performed found running connected resumes =>
      apply updated rfl foundNow
      cases resumes <;> exact Process.proceed_coherent
  | failed found running =>
      exact updated rfl foundNow Process.proceed_coherent
  | crashed found live =>
      exact updated rfl foundNow fun claimed => absurd rfl claimed
  | shutdown found =>
      refine updated rfl foundNow fun claimed => ?_
      rw [Process.shutdown_claim] at claimed
      rw [Process.shutdown_status]
      exact coherent _ _ found claimed
  | reaped =>
      obtain ⟨process, found, rfl⟩ := Option.map_eq_some_iff.mp foundNow
      intro claimed
      refine coherent pid process found fun none => claimed ?_
      simp [none, Claim.reaped]
  | promoted | ticked | registered _ | deleted =>
      exact coherent pid now foundNow

/-! ## Disciplines kept by every process -/

section Disciplined

variable (discipline : Discipline Call Call.Reply AppError)
  (view : Pid → Claim → State → discipline.View)
  (post : discipline.View → Except AppError Result → Prop)

/-- Every running process follows the discipline from its present view. -/
def State.Disciplined (state : State) : Prop :=
  ∀ pid process program, state.processes pid = some process →
    process.status = .running program →
      discipline.Follows post program (view pid process.claim state)

variable {discipline view post}

theorem State.Disciplined.follows {state : State} {pid : Pid}
    {process : Process} {call : Call}
    {next : call.Reply → Async Result} {rescue : AppError → Async Result}
    (disciplined : state.Disciplined discipline view post)
    (found : state.processes pid = some process)
    (running : process.status = .running (.call call next rescue)) :
    discipline.Allowed (view pid (state.claim pid) state) call ∧
      (discipline.Fallible (view pid (state.claim pid) state) call →
        ∀ failure, discipline.Follows post (rescue failure)
          (discipline.lost (view pid (state.claim pid) state))) ∧
      ∀ outcome after,
        discipline.Effect (view pid (state.claim pid) state) call outcome
          after →
        (discipline.Fallible (view pid (state.claim pid) state) call →
          ∀ failure, discipline.Follows post (rescue failure)
            (discipline.lost after)) ∧
        (∀ failure, outcome = .error failure →
          discipline.Follows post (rescue failure) after) ∧
        ∀ reply, outcome = .ok reply →
          discipline.Follows post (next reply) after := by
  rw [State.claim_of_found found]
  exact disciplined pid process _ found running _ (discipline.rely_refl _)

/-- What the discipline says of the call a process is suspended at. -/
theorem State.Disciplined.allowed {state : State} {pid : Pid} {call : Call}
    (disciplined : state.Disciplined discipline view post)
    (pending : state.pending? pid = some call) :
    discipline.Allowed (view pid (state.claim pid) state) call := by
  obtain ⟨process, next, rescue, found, running⟩ :=
    State.running_of_pending? pending
  exact (disciplined.follows found running).1

/-- What a process goes on with once its call is answered. -/
theorem State.Disciplined.resumed {state : State} {pid : Pid}
    {process : Process} {call : Call} {next : call.Reply → Async Result}
    {rescue : AppError → Async Result}
    {outcome : Except AppError call.Reply} {now : discipline.View}
    (disciplined : state.Disciplined discipline view post)
    (found : state.processes pid = some process)
    (running : process.status = .running (.call call next rescue))
    (effect : discipline.Effect (view pid (state.claim pid) state) call outcome
      now) :
    discipline.Follows post (Program.resume next rescue outcome) now := by
  obtain ⟨_, _, completed⟩ := disciplined.follows found running
  obtain ⟨_, failed, replied⟩ := completed outcome now effect
  cases outcome with
  | ok reply => exact replied reply rfl
  | error failure => exact failed failure rfl

/-- A process gives up its claim only at its end. -/
theorem claim_or_ends {process : Process} {program : Async Result}
    {claim : Claim} {now : discipline.View}
    (follows : discipline.Follows post program now) :
    (process.proceed deployment program claim).claim = claim ∨
      ∃ outcome, post now outcome := by
  cases program with
  | call call next rescue => exact .inl rfl
  | pure value => exact .inr ⟨_, follows now (discipline.rely_refl now)⟩
  | throw failure => exact .inr ⟨_, follows now (discipline.rely_refl now)⟩

private theorem follows_proceed {pid : Pid} {process : Process}
    {program continued : Async Result} {claim : Claim} {state : State}
    (fresh : process.role = .worker → discipline.Follows post
      (Role.main deployment .worker) (view pid .none state))
    (follows : discipline.Follows post program (view pid claim state))
    (running : (process.proceed deployment program claim).status =
      .running continued) :
    discipline.Follows post continued
      (view pid (process.proceed deployment program claim).claim state) := by
  rcases Process.proceed_running running with
    ⟨same, kept⟩ | ⟨worker, restarted, none⟩
  · rw [same, kept]
    exact follows
  · rw [restarted, none]
    exact fresh worker

private theorem ends_proceed {pid : Pid} {process : Process} {program : Async Result}
    {claim : Claim} {state : State} {outcome : Except AppError Result}
    (follows : discipline.Follows post program (view pid claim state))
    (returned : (process.proceed deployment program claim).status =
      .returned outcome) : post (view pid claim state) outcome := by
  have ended : ∀ result, (process.finish deployment result).status =
      .returned outcome → result = outcome := by
    intro result returned
    unfold Process.finish at returned
    split at returned
    · cases returned
    · cases returned
      rfl
  cases program with
  | pure value =>
      rw [← ended _ returned]
      exact follows _ (discipline.rely_refl _)
  | throw failure =>
      rw [← ended _ returned]
      exact follows _ (discipline.rely_refl _)
  | call call next rescue => cases returned

/-- Only a call on a store can fail on its own. -/
theorem onStore_of_fail {pid : Pid} {failure : AppError} {call : Call}
    (taken : step deployment before (.fail pid failure) = some after)
    (pending : before.pending? pid = some call) : call.onStore := by
  obtain ⟨process, next, rescue, found, running⟩ :=
    State.running_of_pending? pending
  by_contra offStore
  simp only [step, found, running, offStore, if_false, reduceCtorEq] at taken

theorem onStore_of_failLate {pid : Pid} {choice : Choice} {failure : AppError}
    {call : Call}
    (taken : step deployment before (.failLate pid choice failure) =
      some after)
    (pending : before.pending? pid = some call) : call.onStore := by
  obtain ⟨process, next, rescue, found, running⟩ :=
    State.running_of_pending? pending
  cases stored : call.onStore with
  | true => rfl
  | false =>
      simp only [step, found, running, stored, Bool.false_and,
        Bool.false_eq_true, if_false, reduceCtorEq] at taken

/-- What a step may do to the views of the processes: `Effect` and `lost` to
that of the process that takes it, `Rely` to every other. -/
structure Respects (deployment : Deployment)
    (discipline : Discipline Call Call.Reply AppError)
    (view : Pid → Claim → State → discipline.View)
    (before : State) (action : Action) (after : State) : Prop where
  performed : ∀ {pid choice process call next rescue resumed},
    before.processes pid = some process →
    process.status = .running (.call call next rescue) →
    Resumes deployment pid choice process next rescue action resumed →
    after = before.perform deployment pid choice call resumed →
    discipline.Effect (view pid (before.claim pid) before) call
      (exec deployment choice call before.store).1
      (view pid ((before.claim pid).after call
        (exec deployment choice call before.store).1) after)
  unanswered : ∀ {pid call choice failure},
    before.pending? pid = some call →
    action = .failLate pid choice failure →
    discipline.Fallible (view pid (before.claim pid) before) call ∧
      discipline.Rely
        (discipline.lost (view pid ((before.claim pid).after call
          (exec deployment choice call before.store).1) after))
        (view pid ((before.claim pid).after call
          (exec deployment choice call before.store).1).lost after)
  failed : ∀ {pid call failure},
    before.pending? pid = some call →
    action = .fail pid failure →
    discipline.Fallible (view pid (before.claim pid) before) call ∧
      discipline.Rely
        (discipline.lost (view pid (before.claim pid) before))
        (view pid (before.claim pid).lost after)
  others : ∀ {pid}, action.actor? ≠ some pid →
    discipline.Rely (view pid (before.claim pid) before)
      (view pid (after.claim pid) after)

/-- What a step may do to the views of the processes when they are taken in one
way before the step and in another way after it. -/
structure Carries (deployment : Deployment)
    (discipline : Discipline Call Call.Reply AppError)
    (view later : Pid → Claim → State → discipline.View)
    (before : State) (action : Action) (after : State) : Prop where
  performed : ∀ {pid choice process call next rescue resumed},
    before.processes pid = some process →
    process.status = .running (.call call next rescue) →
    Resumes deployment pid choice process next rescue action resumed →
    after = before.perform deployment pid choice call resumed →
    discipline.Effect (view pid (before.claim pid) before) call
      (exec deployment choice call before.store).1
      (later pid ((before.claim pid).after call
        (exec deployment choice call before.store).1) after)
  unanswered : ∀ {pid call choice failure},
    before.pending? pid = some call →
    action = .failLate pid choice failure →
    discipline.Fallible (view pid (before.claim pid) before) call ∧
      discipline.Rely
        (discipline.lost (later pid ((before.claim pid).after call
          (exec deployment choice call before.store).1) after))
        (later pid ((before.claim pid).after call
          (exec deployment choice call before.store).1).lost after)
  failed : ∀ {pid call failure},
    before.pending? pid = some call →
    action = .fail pid failure →
    discipline.Fallible (view pid (before.claim pid) before) call ∧
      discipline.Rely
        (discipline.lost (view pid (before.claim pid) before))
        (later pid (before.claim pid).lost after)
  others : ∀ {pid}, action.actor? ≠ some pid →
    discipline.Rely (view pid (before.claim pid) before)
      (later pid (after.claim pid) after)

theorem Respects.carries
    (respects : Respects deployment discipline view before action after) :
    Carries deployment discipline view view before action after where
  performed := respects.performed
  unanswered := respects.unanswered
  failed := respects.failed
  others := respects.others

/-- A process that does not take the step keeps its status. -/
theorem status_of_other {pid : Pid} {now : Process}
    (taken : WebhookDelivery.step deployment before action = some after)
    (other : action.actor? ≠ some pid)
    (found : after.processes pid = some now) :
    ∃ process, before.processes pid = some process ∧
      process.status = now.status := by
  have distinct : ∀ {actor}, action.actor? = some actor → pid ≠ actor := by
    rintro actor acts rfl
    exact other acts
  cases steps_of_step taken with
  | start unused =>
      rw [State.setProcess_of_ne _ (distinct rfl)] at found
      exact ⟨now, found, rfl⟩
  | performed _ _ _ resumes =>
      rw [State.perform_of_ne _ _ _ _ _ _ (distinct resumes.performer?.2)]
        at found
      exact ⟨now, found, rfl⟩
  | failed =>
      rw [State.setProcess_of_ne _ (distinct rfl)] at found
      exact ⟨now, found, rfl⟩
  | crashed =>
      rw [State.setProcess_of_ne _ (distinct rfl)] at found
      exact ⟨now, found, rfl⟩
  | @shutdown actor process isProcess =>
      by_cases own : pid = actor
      · subst own
        rw [State.setProcess_self] at found
        cases found
        exact ⟨process, isProcess, Process.shutdown_status.symm⟩
      · rw [State.setProcess_of_ne _ own] at found
        exact ⟨now, found, rfl⟩
  | reaped =>
      obtain ⟨process, isProcess, rfl⟩ := Option.map_eq_some_iff.mp found
      exact ⟨process, isProcess, rfl⟩
  | promoted | ticked | registered | deleted => exact ⟨now, found, rfl⟩

/-- The process that takes the step crashes, or it goes on with a program that
keeps to the discipline. -/
private theorem goes_on {later : Pid → Claim → State → discipline.View}
    {pid : Pid} {now : Process}
    (disciplined : before.Disciplined discipline view post)
    (taken : WebhookDelivery.step deployment before action = some after)
    (fresh : ∀ pid process, after.processes pid = some process →
      action = .start pid process.role ∨ process.role = .worker →
        discipline.Follows post (process.role.main deployment)
          (later pid .none after))
    (carries : Carries deployment discipline view later before action after)
    (acts : action.actor? = some pid)
    (foundNow : after.processes pid = some now) :
    now.status = .crashed ∨ ∃ (process : Process) (program : Async Result)
      (claim : Claim), now = process.proceed deployment program claim ∧
        discipline.Follows post program (later pid claim after) := by
  cases steps_of_step taken with
  | @start actor role unused =>
      cases acts
      have follows := fresh _ _ foundNow
      rw [State.setProcess_self] at foundNow
      cases foundNow
      rw [Process.spawn_role] at follows
      exact .inr ⟨_, _, _, rfl, follows (.inl rfl)⟩
  | @performed _ actor choice process call next rescue resumed found running
      connected resumes =>
      rw [resumes.performer?.2] at acts
      cases acts
      obtain ⟨_, _, completed⟩ := disciplined.follows found running
      obtain ⟨late, failed, replied⟩ := completed _ _
        (carries.performed found running resumes rfl)
      have claimed := State.claim_of_found found
      rw [State.perform_self] at foundNow
      cases foundNow
      right
      cases resumes with
      | replied =>
          refine ⟨_, _, _, rfl, ?_⟩
          rw [claimed] at failed replied
          cases outcome : (exec deployment choice call before.store).1 with
          | ok reply =>
              rw [outcome] at replied
              exact replied reply rfl
          | error failure =>
              rw [outcome] at failed
              exact failed failure rfl
      | @unanswered failure onStore =>
          refine ⟨_, _, _, rfl, ?_⟩
          obtain ⟨fallible, rely⟩ := carries.unanswered
            (State.pending?_of_running found running) rfl
          rw [← claimed]
          exact (late fallible failure).rely rely
  | @failed actor failure process call next rescue found running =>
      cases acts
      obtain ⟨_, gone, _⟩ := disciplined.follows found running
      obtain ⟨fallible, rely⟩ := carries.failed
        (State.pending?_of_running found running) rfl
      rw [State.setProcess_self] at foundNow
      cases foundNow
      refine .inr ⟨_, _, _, rfl, ?_⟩
      rw [← State.claim_of_found found]
      exact (gone fallible failure).rely rely
  | crashed =>
      cases acts
      rw [State.setProcess_self] at foundNow
      cases foundNow
      exact .inl rfl
  | shutdown | promoted | reaped | ticked | registered | deleted => cases acts

/-- A step that carries the views over keeps every process to the
discipline. -/
theorem State.Disciplined.carried
    {later : Pid → Claim → State → discipline.View}
    (disciplined : before.Disciplined discipline view post)
    (taken : WebhookDelivery.step deployment before action = some after)
    (fresh : ∀ pid process, after.processes pid = some process →
      action = .start pid process.role ∨ process.role = .worker →
        discipline.Follows post (process.role.main deployment)
          (later pid .none after))
    (carries : Carries deployment discipline view later before action after) :
    after.Disciplined discipline later post := by
  intro pid now continued foundNow runningNow
  by_cases acts : action.actor? = some pid
  · rcases goes_on disciplined taken fresh carries acts foundNow with
      crashed | ⟨process, program, claim, rfl, follows⟩
    · rw [crashed] at runningNow
      cases runningNow
    · refine follows_proceed (fun worker => ?_) follows runningNow
      have restarts := fresh pid _ foundNow
      rw [Process.proceed_role, worker] at restarts
      exact restarts (.inr rfl)
  · obtain ⟨process, found, same⟩ := status_of_other taken acts foundNow
    have rely := carries.others acts
    rw [State.claim_of_found found, State.claim_of_found foundNow] at rely
    exact (disciplined pid process _ found (same.trans runningNow)).rely rely

/-- A step that respects the views keeps every process to the discipline. -/
theorem State.Disciplined.step
    (disciplined : before.Disciplined discipline view post)
    (taken : WebhookDelivery.step deployment before action = some after)
    (fresh : ∀ pid process, after.processes pid = some process →
      action = .start pid process.role ∨ process.role = .worker →
        discipline.Follows post (process.role.main deployment)
          (view pid .none after))
    (respects : Respects deployment discipline view before action after) :
    after.Disciplined discipline view post :=
  disciplined.carried taken fresh respects.carries

/-- A process that returns in a step ends as the discipline says. -/
theorem State.Disciplined.returned {pid : Pid} {now : Process}
    {outcome : Except AppError Result}
    (disciplined : before.Disciplined discipline view post)
    (taken : WebhookDelivery.step deployment before action = some after)
    (fresh : ∀ pid process, after.processes pid = some process →
      action = .start pid process.role ∨ process.role = .worker →
        discipline.Follows post (process.role.main deployment)
          (view pid .none after))
    (respects : Respects deployment discipline view before action after)
    (foundNow : after.processes pid = some now)
    (returned : now.status = .returned outcome) :
    (∃ process, before.processes pid = some process ∧
        process.status = .returned outcome) ∨
      ∃ claim, post (view pid claim after) outcome := by
  by_cases acts : action.actor? = some pid
  · rcases goes_on disciplined taken fresh respects.carries acts foundNow with
      crashed | ⟨process, program, claim, rfl, follows⟩
    · rw [crashed] at returned
      cases returned
    · exact .inr ⟨claim, ends_proceed follows returned⟩
  · obtain ⟨process, found, same⟩ := status_of_other taken acts foundNow
    exact .inl ⟨process, found, same.trans returned⟩

end Disciplined

end WebhookDelivery
