import WebhookDelivery.Library.Purge
import WebhookDelivery.Footprints
import WebhookDelivery.IsolatedStores

/-!
# Tenants do not notice each other

The requests of one tenant are answered as they would be if the tenant were
alone with its webhooks: everything else that happens in a run can be left
out.
-/

namespace WebhookDelivery

open Concurrency Program

/-! ## Requests -/

/-- The answer to a request without what deliveries change. -/
def Result.origin : Result → Result
  | .enqueued job => .enqueued job.origin
  | result => result

/-- A request passes on nothing about how far a job has come, except in the job
it returns. -/
theorem enqueue_alike (input : EnqueueInput) :
    Alike SameOrigin (fun job other => job.origin = other.origin)
      (JobService.enqueue input) (JobService.enqueue input) := by
  have unlessFound : ∀ {permitted : Call → Bool} {Value : Type}
      {program : Async Value},
      (∀ jobId, permitted (.findJob jobId) = false) →
        (program.Within fun call => permitted call) →
          Alike SameOrigin Eq program program := by
    intro permitted Value program excluded within
    refine .of_within (fun call allowed reply other same => ?_) within
    cases call with
    | findJob jobId =>
        rw [excluded jobId] at allowed
        cases allowed
    | _ => exact same
  have creates : Alike SameOrigin (fun job other => job.origin = other.origin)
      (JobService.createOrAbort input) (JobService.createOrAbort input) := by
    refine Alike.mono ?_ (unlessFound (fun _ => rfl)
      (createOrAbort_within input))
    rintro job _ rfl
    rfl
  refine Alike.bind (unlessFound (fun _ => rfl) (getOwnedBy_within _ _)) ?_
  rintro webhook _ rfl
  split
  · exact .throw
  split
  · exact creates
  refine Alike.bind (unlessFound (fun _ => rfl) (begin_within _ _)) ?_
  rintro outcome _ rfl
  cases outcome with
  | new => exact creates
  | duplicate jobId =>
      have finds : Alike SameOrigin
          (fun found other => found.map Job.origin = other.map Job.origin)
          (JobRepository.findById jobId) (JobRepository.findById jobId) :=
        .call (fun same => .pure same) fun _ => .throw
      refine Alike.bind finds fun {found other} same => ?_
      cases found with
      | none =>
          cases other with
          | none => exact creates
          | some job => cases same
      | some job =>
          cases other with
          | none => cases same
          | some another => exact .pure (Option.some.inj same)
  | pending => exact .throw

/-- Two requests have come equally far, or have the same answer. -/
inductive Status.Alike : Status → Status → Prop
  | running {program other : Async Result}
      (same : Program.Alike SameOrigin
        (fun result other => result.origin = other.origin) program other) :
      Status.Alike (.running program) (.running other)
  | returned {outcome other : Except AppError Result}
      (same : AlikeOutcomes
        (fun result other => result.origin = other.origin) outcome other) :
      Status.Alike (.returned outcome) (.returned other)
  | crashed : Status.Alike .crashed .crashed

theorem main_alike (deployment : Deployment) (input : EnqueueInput) :
    Program.Alike SameOrigin (fun result other => result.origin = other.origin)
      ((Role.enqueue input).main deployment)
      ((Role.enqueue input).main deployment) :=
  Alike.bind (enqueue_alike input) fun same =>
    .pure (congrArg Result.enqueued same)

/-- A request that goes on, or is over. -/
theorem Process.proceed_alike {deployment : Deployment}
    {process other : Process} {input : EnqueueInput}
    {program another : Async Result} {claim otherClaim : Claim}
    (role : process.role = .enqueue input)
    (otherRole : other.role = .enqueue input)
    (same : Program.Alike SameOrigin
      (fun result other => result.origin = other.origin) program another) :
    (process.proceed deployment program claim).status.Alike
      (other.proceed deployment another otherClaim).status := by
  have ends : ∀ {process : Process}, process.role = .enqueue input →
      ∀ outcome, (process.finish deployment outcome).status =
        .returned outcome := by
    intro process role outcome
    unfold finish
    rw [if_neg]
    rintro ⟨worker, _⟩
    cases role.symm.trans worker
  cases same with
  | pure same =>
      simp only [proceed, ends role, ends otherRole]
      exact .returned (.ok same)
  | throw =>
      simp only [proceed, ends role, ends otherRole]
      exact .returned .error
  | call replied failed => exact .running (.call replied failed)

/-! ## What a tenant takes part in -/

/-- A request of the tenant. -/
def Role.isFor (tenant : String) : Role → Bool
  | .enqueue input => input.tenant = tenant
  | _ => false

theorem Role.eq_enqueue_of_isFor {tenant : String} {role : Role}
    (own : role.isFor tenant) :
    ∃ input, role = .enqueue input ∧ input.tenant = tenant := by
  cases role with
  | enqueue input => exact ⟨input, rfl, of_decide_eq_true own⟩
  | _ => cases own

/-- The steps of the tenant's requests, the passing of time, and the
registration and deletion of webhooks. -/
def visibleTo (tenant : String) (state : State) : Action → Bool
  | .start _ role => role.isFor tenant
  | .call pid _ | .fail pid _ | .failLate pid _ _ | .crash pid
  | .shutdown pid => (state.role? pid).any (Role.isFor tenant)
  | .promote _ _ | .reap _ _ => false
  | .tick _ | .registerWebhook _ | .deleteWebhook _ => true

/-- A row of the tenant is inserted. -/
def Call.insertsFor (tenant : String) : Call → Bool
  | .insertJob input => input.tenant = tenant
  | _ => false

/-- `gen_random_uuid()` gives a row of the tenant an id that has not been given
before. -/
def FreshIds (tenant : String) (state : State) : Action → Prop
  | .call pid choice | .failLate pid choice _ =>
      ∀ call ∈ state.pending? pid, call.insertsFor tenant →
        choice.uuid ∉ state.store.db.issued
  | _ => True

instance (tenant : String) (state : State) :
    DecidablePred (FreshIds tenant state) :=
  fun action => by
    induction action using Action.casesOn <;> unfold FreshIds <;> infer_instance

/-- The second state is the first one without whatever the tenant takes no part
in. -/
structure State.Shows (tenant : String) (slots : String → Prop)
    (state alone : State) : Prop where
  invariant : TenantInvariant tenant slots state
  store : state.store.Shows tenant slots alone.store
  own : ∀ {pid process}, state.processes pid = some process →
    process.role.isFor tenant → ∃ other, alone.processes pid = some other ∧
      other.role = process.role ∧ process.status.Alike other.status
  absent : ∀ {pid}, (∀ process, state.processes pid = some process →
    process.role.isFor tenant = false) → alone.processes pid = none

namespace State.Shows

variable {tenant : String} {slots : String → Prop} {deployment : Deployment}
  {before after alone next : State} {action : Action}

/-- A process of somebody else goes on. -/
theorem foreign (shows : before.Shows tenant slots alone)
    (invariant : TenantInvariant tenant slots after)
    (store : after.store.Shows tenant slots alone.store) {pid : Pid}
    (others : ∀ other, other ≠ pid →
      after.processes other = before.processes other)
    (was : ∀ process, before.processes pid = some process →
      process.role.isFor tenant = false)
    (now : ∀ process, after.processes pid = some process →
      process.role.isFor tenant = false) :
    after.Shows tenant slots alone where
  invariant := invariant
  store := store
  own {other process} found theirs := by
    by_cases same : other = pid
    · subst same
      rw [now process found] at theirs
      cases theirs
    · rw [others other same] at found
      exact shows.own found theirs
  absent {other} foreign := by
    by_cases same : other = pid
    · subst same
      exact shows.absent was
    · rw [others other same] at foreign
      exact shows.absent foreign

/-- A request of the tenant goes on in both states. -/
theorem together (shows : before.Shows tenant slots alone)
    (invariant : TenantInvariant tenant slots after)
    (store : after.store.Shows tenant slots next.store) {pid : Pid}
    (others : ∀ other, other ≠ pid →
      after.processes other = before.processes other ∧
        next.processes other = alone.processes other)
    {process other : Process} (found : after.processes pid = some process)
    (there : next.processes pid = some other)
    (theirs : process.role.isFor tenant) (role : other.role = process.role)
    (same : process.status.Alike other.status) :
    after.Shows tenant slots next where
  invariant := invariant
  store := store
  own {another now} foundNow theirsNow := by
    by_cases equal : another = pid
    · subst equal
      cases found.symm.trans foundNow
      exact ⟨other, there, role, same⟩
    · rw [(others another equal).1] at foundNow
      rw [(others another equal).2]
      exact shows.own foundNow theirsNow
  absent {another} foreign := by
    by_cases equal : another = pid
    · subst equal
      rw [foreign process found] at theirs
      cases theirs
    · rw [(others another equal).1] at foreign
      rw [(others another equal).2]
      exact shows.absent foreign

/-- A request of the tenant goes on in both states, and the stores stay as
they are. -/
private theorem together_setProcess (shows : before.Shows tenant slots alone)
    {pid : Pid} {process other : Process}
    (invariant : TenantInvariant tenant slots
      (before.setProcess pid process))
    (theirs : process.role.isFor tenant) (role : other.role = process.role)
    (same : process.status.Alike other.status) :
    (before.setProcess pid process).Shows tenant slots
      (alone.setProcess pid other) :=
  shows.together invariant shows.store
    (fun _ distinct => ⟨before.setProcess_of_ne distinct _,
      alone.setProcess_of_ne distinct _⟩)
    (before.setProcess_self _ _) (alone.setProcess_self _ _) theirs role same

/-- A request of the tenant completes a call in both states. -/
private theorem together_perform (shows : before.Shows tenant slots alone)
    {pid : Pid} {choice : Choice} {call : Call}
    {resumed resumedToo : Except AppError call.Reply → Process}
    (invariant : TenantInvariant tenant slots
      (before.perform deployment pid choice call resumed))
    (stores : (exec deployment choice call before.store).2.Shows tenant slots
      (exec deployment choice call alone.store).2)
    (theirs : (resumed (exec deployment choice call
      before.store).1).role.isFor tenant)
    (role : (resumedToo (exec deployment choice call alone.store).1).role =
      (resumed (exec deployment choice call before.store).1).role)
    (same : (resumed (exec deployment choice call
      before.store).1).status.Alike
        (resumedToo (exec deployment choice call alone.store).1).status) :
    (before.perform deployment pid choice call resumed).Shows tenant slots
      (alone.perform deployment pid choice call resumedToo) :=
  shows.together invariant stores
    (fun _ distinct => ⟨before.perform_of_ne _ _ _ _ _ distinct,
      alone.perform_of_ne _ _ _ _ _ distinct⟩)
    (before.perform_self _ _ _ _ _) (alone.perform_self _ _ _ _ _) theirs role
    same

/-- The calls of a request of the tenant stay within what the tenant has. -/
theorem staysWithin (shows : before.Shows tenant slots alone) {pid : Pid}
    {input : EnqueueInput} {call : Call} {choice : Choice}
    (known : before.role? pid = some (.enqueue input))
    (own : input.tenant = tenant) (pending : before.pending? pid = some call)
    (fresh : call.insertsFor tenant → choice.uuid ∉ before.store.db.issued) :
    call.StaysWithin tenant slots before.store choice := by
  obtain ⟨role, same, allows⟩ := shows.invariant.trace.allows pending
  cases known.symm.trans same
  have theirs : ∀ {slot}, slotName input = some slot → slots slot :=
    fun named => (shows.invariant.separate known named).mpr own
  obtain ⟨-, allows⟩ := allows
  cases call with
  | setSlotNx key => exact theirs allows.1
  | getSlot key => exact theirs allows
  | setSlot key jobId => exact theirs allows.1
  | delSlot key => exact theirs allows.1
  | findJob jobId =>
      obtain ⟨slot, named, read⟩ := allows
      exact (shows.invariant.resolved (theirs named)
        (.inr (did_history_iff.mpr ⟨pid, read⟩))).2
  | insertJob job =>
      obtain ⟨rfl, -⟩ := allows
      exact ⟨own, fresh (decide_eq_true own)⟩
  | now | findWebhook | push | pushDelayed => trivial
  | _ => exact allows.elim

/-- The calls of other processes spare what the tenant has. -/
theorem spares (shows : before.Shows tenant slots alone) {pid : Pid}
    {role : Role} {call : Call} (known : before.role? pid = some role)
    (foreign : role.isFor tenant = false)
    (pending : before.pending? pid = some call) :
    (∀ name, call.slot? = some name → ¬slots name) ∧
      ∀ input, call = .insertJob input → input.tenant ≠ tenant := by
  obtain ⟨same, found, allows⟩ := shows.invariant.trace.allows pending
  cases known.symm.trans found
  cases role with
  | enqueue input =>
      have other : input.tenant ≠ tenant := of_decide_eq_false foreign
      have theirs : ∀ {slot}, slotName input = some slot → ¬slots slot :=
        fun named own =>
          other ((shows.invariant.separate known named).mp own)
      obtain ⟨-, allows⟩ := allows
      constructor
      · intro name named
        cases call with
        | setSlotNx key =>
            cases named
            exact theirs allows.1
        | setSlot key jobId =>
            cases named
            exact theirs allows.1
        | delSlot key =>
            cases named
            exact theirs allows.1
        | _ => cases named
      · rintro job rfl
        obtain ⟨rfl, -⟩ := allows
        exact other
  | worker =>
      constructor
      · intro name named
        cases call <;> cases named <;> cases allows
      · rintro job rfl
        cases allows
  | replay limit =>
      constructor
      · intro name named
        cases call <;> cases named <;> cases allows
      · rintro job rfl
        cases allows

/-- A call that can be answered here can be answered there. -/
private theorem step_of_resumes {state : State} {pid : Pid} {choice : Choice}
    {process : Process} {call : Call} {next : call.Reply → Async Result}
    {rescue : AppError → Async Result}
    {resumed : Except AppError call.Reply → Process}
    (found : state.processes pid = some process)
    (running : process.status = .running (.call call next rescue))
    (connected : process.connected call)
    (resumes : Resumes deployment pid choice process next rescue action
      resumed) :
    step deployment state action =
      some (state.perform deployment pid choice call resumed) := by
  cases resumes with
  | replied =>
      simp only [WebhookDelivery.step, found, running, connected, if_true]
  | unanswered onStore =>
      simp only [WebhookDelivery.step, found, running, connected, onStore,
        Bool.and_true, if_true]

/-- A process that is not the tenant's goes on, and the stores stay as they
are. -/
private theorem foreign_setProcess (shows : before.Shows tenant slots alone)
    {pid : Pid} {process now : Process}
    (invariant : TenantInvariant tenant slots (before.setProcess pid now))
    (found : before.processes pid = some process)
    (foreign : process.role.isFor tenant = false)
    (same : now.role = process.role) :
    (before.setProcess pid now).Shows tenant slots alone := by
  refine shows.foreign invariant shows.store
    (fun other distinct => before.setProcess_of_ne distinct _)
    (fun other was => ?_) fun other later => ?_
  · cases found.symm.trans was
    exact foreign
  · rw [State.setProcess_self] at later
    cases later
    rw [same]
    exact foreign

/-- Whether an action is the tenant's depends on the request of its process. -/
private theorem isFor_of_found {pid : Pid} {process : Process} {answer : Bool}
    (found : before.processes pid = some process)
    (told : (before.role? pid).any (Role.isFor tenant) = answer) :
    process.role.isFor tenant = answer := by
  simpa only [State.role?, found, Option.map_some, Option.any_some] using told

/-- What a step outside the view of the tenant does. -/
theorem unseen (shows : before.Shows tenant slots alone)
    (separates : Separates tenant slots action)
    (hidden : visibleTo tenant before action = false)
    (taken : step deployment before action = some after) :
    after.Shows tenant slots alone := by
  have invariant := shows.invariant.step separates taken
  cases steps_of_step taken with
  | @start pid role unused =>
      refine shows.foreign invariant shows.store
        (fun other distinct => before.setProcess_of_ne distinct _)
        (fun process found => ?_) fun process found => ?_
      · cases unused.symm.trans found
      · rw [State.setProcess_self] at found
        cases found
        rw [Process.spawn_role]
        exact hidden
  | @performed _ pid choice process call next rescue resumed found running
      connected resumes =>
      have foreign : process.role.isFor tenant = false :=
        isFor_of_found found (by cases resumes <;> exact hidden)
      have role := State.role?_of_found found
      obtain ⟨spares, inserts⟩ := shows.spares role foreign
        (State.pending?_of_running found running)
      refine shows.foreign invariant
        (shows.store.foreign shows.invariant.recorded spares inserts)
        (fun other distinct => before.perform_of_ne _ _ _ _ _ distinct)
        (fun other was => ?_) fun other now => ?_
      · cases found.symm.trans was
        exact foreign
      · rw [State.perform_self] at now
        cases now
        cases resumes <;>
          simpa only [Process.replied, Process.unanswered,
            Process.proceed_role] using foreign
  | failed found =>
      exact shows.foreign_setProcess invariant found
        (isFor_of_found found hidden) Process.proceed_role
  | crashed found =>
      exact shows.foreign_setProcess invariant found
        (isFor_of_found found hidden) rfl
  | shutdown found =>
      exact shows.foreign_setProcess invariant found
        (isFor_of_found found hidden) Process.shutdown_role
  | promoted =>
      exact ⟨invariant, ⟨(Redis.promoteScript_sameSlots _ _).trans
        shows.store.redis, shows.store.db⟩, shows.own, shows.absent⟩
  | reaped =>
      refine ⟨invariant, ⟨(Redis.reapScript_sameSlots _ _).trans
        shows.store.redis, shows.store.db⟩, ?_, ?_⟩
      · intro pid process found theirs
        obtain ⟨old, was, rfl⟩ := Option.map_eq_some_iff.mp found
        obtain ⟨other, there, role, same⟩ := shows.own was theirs
        exact ⟨other, there, role, same⟩
      · intro pid foreign
        refine shows.absent fun process was => ?_
        have other := foreign _ (Option.map_eq_some_iff.mpr
          ⟨process, was, rfl⟩)
        exact other
  | ticked | registered | deleted => cases hidden

/-- A call of the tenant's request is answered alike in both states. -/
private theorem performed_together (shows : before.Shows tenant slots alone)
    (invariant : TenantInvariant tenant slots after)
    (fresh : FreshIds tenant before action) {pid : Pid} {choice : Choice}
    {process : Process} {call : Call} {rest : call.Reply → Async Result}
    {rescue : AppError → Async Result}
    {resumed : Except AppError call.Reply → Process}
    (found : before.processes pid = some process)
    (theirs : process.role.isFor tenant)
    (running : process.status = .running (.call call rest rescue))
    (resumes : Resumes deployment pid choice process rest rescue action
      resumed)
    (now : after = before.perform deployment pid choice call resumed) :
    ∃ next, step deployment alone action = some next ∧
      after.Shows tenant slots next := by
  obtain ⟨input, role, own⟩ := Role.eq_enqueue_of_isFor theirs
  obtain ⟨other, there, sameRole, same⟩ := shows.own found theirs
  have known : before.role? pid = some (.enqueue input) := by
    rw [State.role?_of_found found, role]
  have pending := State.pending?_of_running found running
  have within : call.StaysWithin tenant slots before.store choice := by
    refine shows.staysWithin known own pending fun inserts => ?_
    cases resumes with
    | replied => exact fresh call pending inserts
    | unanswered => exact fresh call pending inserts
  obtain ⟨answers, stores⟩ :=
    @Store.Shows.own tenant slots _ _ deployment choice call shows.store within
  have connected : other.connected call := by
    cases call with
    | zaddLease => exact within.elim
    | _ => rfl
  rw [running] at same
  generalize progress : other.status = status at same
  cases same with
  | @running _ program same =>
      cases same with
      | @call _ _ otherRest _ otherRescue replied failed =>
          have otherRole := sameRole.trans role
          cases resumes with
          | replied =>
              have taken := step_of_resumes there progress connected
                (@Resumes.replied deployment pid choice other call otherRest
                  otherRescue)
              refine ⟨_, taken, ?_⟩
              subst now
              refine shows.together_perform invariant stores ?_ ?_ ?_
              · simpa only [Process.replied, Process.proceed_role]
                  using theirs
              · simp only [Process.replied, Process.proceed_role, sameRole]
              · exact Process.proceed_alike role otherRole
                  (Alike.resume replied failed answers)
          | @unanswered failure onStore =>
              have taken := step_of_resumes there progress connected
                (@Resumes.unanswered deployment pid choice other call otherRest
                  otherRescue failure onStore)
              refine ⟨_, taken, ?_⟩
              subst now
              refine shows.together_perform invariant stores ?_ ?_ ?_
              · simpa only [Process.unanswered, Process.proceed_role]
                  using theirs
              · simp only [Process.unanswered, Process.proceed_role,
                  sameRole]
              · exact Process.proceed_alike role otherRole (failed failure)

/-- What a step in the view of the tenant does in both states. -/
theorem seen (shows : before.Shows tenant slots alone)
    (separates : Separates tenant slots action)
    (fresh : FreshIds tenant before action)
    (sees : visibleTo tenant before action = true)
    (taken : step deployment before action = some after) :
    ∃ next, step deployment alone action = some next ∧
      after.Shows tenant slots next := by
  have invariant := shows.invariant.step separates taken
  cases steps_of_step taken with
  | @start pid role unused =>
      obtain ⟨input, rfl, own⟩ := Role.eq_enqueue_of_isFor sees
      have unusedToo : alone.processes pid = none := by
        refine shows.absent fun process found => ?_
        cases unused.symm.trans found
      refine ⟨alone.setProcess pid (.spawn deployment (.enqueue input)),
        by simp only [WebhookDelivery.step, unusedToo], ?_⟩
      refine shows.together_setProcess invariant ?_ rfl ?_
      · rw [Process.spawn_role]
        exact sees
      · exact Process.proceed_alike rfl rfl (main_alike deployment input)
  | @performed _ pid choice process call next rescue resumed found running
      connected resumes =>
      refine shows.performed_together invariant fresh found
        (isFor_of_found found ?_) running resumes rfl
      cases resumes <;> exact sees
  | @failed pid failure process call next rescue found running =>
      have theirs : process.role.isFor tenant := isFor_of_found found sees
      obtain ⟨input, role, own⟩ := Role.eq_enqueue_of_isFor theirs
      obtain ⟨other, there, sameRole, same⟩ := shows.own found theirs
      have onStore := onStore_of_fail taken
        (State.pending?_of_running found running)
      rw [running] at same
      generalize progress : other.status = status at same
      cases same with
      | running same =>
          cases same with
          | @call _ _ otherNext _ otherRescue replied failed =>
              refine ⟨alone.setProcess pid
                (other.failed deployment (otherRescue failure)),
                by simp only [WebhookDelivery.step, there, progress, onStore,
                  if_true], ?_⟩
              refine shows.together_setProcess invariant ?_ ?_ ?_
              · simpa only [Process.failed, Process.proceed_role] using theirs
              · simp only [Process.failed, Process.proceed_role, sameRole]
              · exact Process.proceed_alike role (sameRole.trans role)
                  (failed failure)
  | @crashed pid process found live =>
      have theirs : process.role.isFor tenant := isFor_of_found found sees
      obtain ⟨other, there, sameRole, same⟩ := shows.own found theirs
      obtain ⟨program, running⟩ := live
      rw [running] at same
      generalize progress : other.status = status at same
      cases same with
      | running same =>
          refine ⟨alone.setProcess pid other.crash,
            by simp only [WebhookDelivery.step, there, progress], ?_⟩
          exact shows.together_setProcess invariant theirs sameRole .crashed
  | @shutdown pid process found =>
      have theirs : process.role.isFor tenant := isFor_of_found found sees
      obtain ⟨other, there, sameRole, same⟩ := shows.own found theirs
      refine ⟨alone.setProcess pid other.shutdown,
        by simp only [WebhookDelivery.step, there], ?_⟩
      refine shows.together_setProcess invariant ?_ ?_ ?_
      · rw [Process.shutdown_role]
        exact theirs
      · rw [Process.shutdown_role, Process.shutdown_role, sameRole]
      · rw [Process.shutdown_status, Process.shutdown_status]
        exact same
  | promoted | reaped => cases sees
  | @ticked ms =>
      refine ⟨_, rfl, invariant, ⟨⟨?_, shows.store.redis.slots⟩,
        shows.store.db⟩, shows.own, shows.absent⟩
      exact congrArg (· + (ms : Int)) shows.store.redis.clock
  | @registered row unused =>
      have unusedToo : row.id ∉ alone.store.db.issued :=
        fun known => unused (shows.store.db.issued known)
      exact ⟨_, if_neg unusedToo, invariant,
        ⟨shows.store.redis, shows.store.db.insertWebhook row⟩, shows.own,
        shows.absent⟩
  | @deleted id =>
      exact ⟨_, rfl, invariant,
        ⟨shows.store.redis, shows.store.db.deleteWebhook id⟩, shows.own,
        shows.absent⟩

/-- What the tenant takes part in goes on without the rest. -/
theorem unwinds : Unwinds (step deployment) (visibleTo tenant)
    (fun state action => Separates tenant slots action ∧
      FreshIds tenant state action)
    (State.Shows tenant slots) where
  unseen shows permitted hidden taken :=
    shows.unseen permitted.1 hidden taken
  seen shows permitted sees taken :=
    shows.seen permitted.1 permitted.2 sees taken

theorem initial : State.initial.Shows tenant slots State.initial where
  invariant := .initial
  store := ⟨.refl _, rfl, fun known => known, fun _ => rfl⟩
  own found := by cases found
  absent _ := rfl

end State.Shows

end WebhookDelivery
