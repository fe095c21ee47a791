import WebhookDelivery.TraceInvariant

/-!
# Views that the state does not determine

Whether a process has sent a request since its last call failed cannot be read
off the state.  Here a process follows a discipline from some view that the
state bears out.
-/

namespace WebhookDelivery

open Concurrency

section Shadowed

variable (discipline : Discipline Call Call.Reply AppError)
  (bears : Pid → discipline.View → State → Prop)
  (post : discipline.View → Except AppError Result → Prop)

/-- Every running process follows the discipline from a view that the state
bears out. -/
def State.Shadowed (state : State) : Prop :=
  ∀ pid process program, state.processes pid = some process →
    process.status = .running program →
      ∃ view, bears pid view state ∧ discipline.Follows post program view

variable {discipline bears post}

/-- The view of a process that is suspended at a call. -/
theorem State.Shadowed.follows {state : State} {pid : Pid}
    {process : Process} {call : Call} {next : call.Reply → Async Result}
    {rescue : AppError → Async Result}
    (shadowed : state.Shadowed discipline bears post)
    (found : state.processes pid = some process)
    (running : process.status = .running (.call call next rescue)) :
    ∃ view, bears pid view state ∧ discipline.Allowed view call ∧
      (discipline.Fallible view call → ∀ failure,
        discipline.Follows post (rescue failure) (discipline.lost view)) ∧
      ∀ outcome after, discipline.Effect view call outcome after →
        (discipline.Fallible view call → ∀ failure,
          discipline.Follows post (rescue failure) (discipline.lost after)) ∧
        discipline.Follows post (Program.resume next rescue outcome)
          after := by
  obtain ⟨view, borne, follows⟩ := shadowed pid process _ found running
  obtain ⟨allowed, lost, completed⟩ := follows view (discipline.rely_refl view)
  refine ⟨view, borne, allowed, lost, fun outcome after effect => ?_⟩
  obtain ⟨late, failed, replied⟩ := completed outcome after effect
  cases outcome with
  | ok reply => exact ⟨late, replied reply rfl⟩
  | error failure => exact ⟨late, failed failure rfl⟩

/-- What a step may do to the views that the state bears out. -/
structure Shadows (deployment : Deployment)
    (discipline : Discipline Call Call.Reply AppError)
    (bears : Pid → discipline.View → State → Prop)
    (post : discipline.View → Except AppError Result → Prop)
    (before : State) (action : Action) (after : State) : Prop where
  started : ∀ {pid role}, action = .start pid role →
    before.processes pid = none →
      ∃ view, bears pid view after ∧
        discipline.Follows post (role.main deployment) view
  restarted : ∀ {pid view outcome}, post view outcome →
    bears pid view after →
      ∃ view, bears pid view after ∧
        discipline.Follows post (Role.main deployment .worker) view
  performed : ∀ {pid choice call view}, action.performer? = some pid →
    before.pending? pid = some call →
    after.store = (exec deployment choice call before.store).2 →
    after.history = ⟨pid, call,
      (exec deployment choice call before.store).1⟩ :: before.history →
    bears pid view before → discipline.Allowed view call →
      ∃ later, discipline.Effect view call
          (exec deployment choice call before.store).1 later ∧
        bears pid later after ∧
        (action.late → call.onStore → discipline.Fallible view call ∧
          bears pid (discipline.lost later) after)
  failed : ∀ {pid failure call view}, action = .fail pid failure →
    before.pending? pid = some call → bears pid view before →
      discipline.Allowed view call →
        discipline.Fallible view call ∧
          bears pid (discipline.lost view) after
  others : ∀ {pid view}, action.actor? ≠ some pid →
    bears pid view before → bears pid view after

variable {deployment : Deployment} {before after : State} {action : Action}

namespace Shadows

/-- A process that goes on does so from the view it has now, or starts
over. -/
private theorem proceeds
    (shadows : Shadows deployment discipline bears post before action after)
    {pid : Pid} {view : discipline.View} {process : Process}
    {program continued : Async Result} {claim : Claim}
    (borne : bears pid view after)
    (follows : discipline.Follows post program view)
    (running : (process.proceed deployment program claim).status =
      .running continued) :
    ∃ view, bears pid view after ∧
      discipline.Follows post continued view := by
  have restarts : ∀ outcome, post view outcome →
      (process.finish deployment outcome).status = .running continued →
        ∃ view, bears pid view after ∧
          discipline.Follows post continued view := by
    intro outcome ends again
    unfold Process.finish at again
    split at again
    · cases again
      exact shadows.restarted ends borne
    · cases again
  cases program with
  | pure value =>
      exact restarts _ (follows view (discipline.rely_refl view)) running
  | throw failure =>
      exact restarts _ (follows view (discipline.rely_refl view)) running
  | call call next rescue =>
      cases running
      exact ⟨view, borne, follows⟩

end Shadows

/-- A step that keeps to the views keeps every process to the discipline. -/
theorem State.Shadowed.step
    (shadowed : before.Shadowed discipline bears post)
    (taken : WebhookDelivery.step deployment before action = some after)
    (shadows : Shadows deployment discipline bears post before action after) :
    after.Shadowed discipline bears post := by
  intro pid now continued foundNow runningNow
  by_cases acts : action.actor? = some pid
  · cases steps_of_step taken with
    | start unused =>
        cases acts
        obtain ⟨view, borne, follows⟩ := shadows.started rfl unused
        rw [State.setProcess_self] at foundNow
        cases foundNow
        exact shadows.proceeds borne follows runningNow
    | @performed _ actor choice process call next rescue resumed found running
        connected resumes =>
        rw [resumes.performer?.2] at acts
        cases acts
        have pending := State.pending?_of_running found running
        rw [State.perform_self] at foundNow
        cases foundNow
        obtain ⟨view, borne, allowed, _, completed⟩ :=
          shadowed.follows found running
        obtain ⟨later, effect, borneNow, late⟩ := shadows.performed
          resumes.performer?.1 pending rfl rfl borne allowed
        obtain ⟨lost, follows⟩ := completed _ _ effect
        cases resumes with
        | replied => exact shadows.proceeds borneNow follows runningNow
        | @unanswered failure onStore =>
            obtain ⟨fallible, borneLost⟩ := late rfl onStore
            exact shadows.proceeds borneLost (lost fallible failure)
              runningNow
    | @failed actor failure process call next rescue found running =>
        cases acts
        obtain ⟨view, borne, allowed, lost, _⟩ :=
          shadowed.follows found running
        obtain ⟨fallible, borneNow⟩ := shadows.failed rfl
          (State.pending?_of_running found running) borne allowed
        rw [State.setProcess_self] at foundNow
        cases foundNow
        exact shadows.proceeds borneNow (lost fallible failure) runningNow
    | crashed found live =>
        cases acts
        rw [State.setProcess_self] at foundNow
        cases foundNow
        cases runningNow
    | shutdown | promoted | reaped | ticked | registered | deleted =>
        cases acts
  · obtain ⟨process, found, same⟩ := status_of_other taken acts foundNow
    obtain ⟨view, borne, follows⟩ :=
      shadowed pid process _ found (same.trans runningNow)
    exact ⟨view, shadows.others acts borne, follows⟩

end Shadowed

end WebhookDelivery
