import WebhookDelivery.Footprints
import WebhookDelivery.Fencing

/-!
# Workers that wind down

After its `SIGTERM` a worker finishes the job it has and asks for no other one.
An iteration of the consume loop asks once, at its start, and no iteration is
started any more.
-/

namespace WebhookDelivery

open Concurrency

/-- The program asks for no job. -/
abbrev AsksNot {Value : Type} (program : Async Value) : Prop :=
  program.Within (· ≠ .brpoplpush)

/-- The program asks for no job, or only with its next call. -/
def AsksOnce (program : Async Result) : Prop :=
  AsksNot program ∨ ∃ next rescue, program = .call .brpoplpush next rescue ∧
    (∀ reply, AsksNot (next reply)) ∧ ∀ failure, AsksNot (rescue failure)

/-! ## Programs -/

/-- Programs that make only calls of a kind to which `BRPOPLPUSH` does not
belong. -/
theorem asksNot_of_within {Value : Type} {program : Async Value}
    {kind : Call → Bool} (within : program.Within fun call => kind call)
    (excludes : kind .brpoplpush = false) : AsksNot program :=
  within.mono fun call member same => by
    rw [same, excludes] at member
    cases member

theorem deliverJob_asksNot (deployment : Deployment) (jobId : JobId)
    (job : Job) : AsksNot (JobService.deliverJob deployment jobId job) :=
  .bind (.perform (by simp)) fun _ =>
  .bind (asksNot_of_within (getById_within _) rfl) fun _ =>
  .bind (asksNot_of_within (getSecret_within _) rfl) fun _ =>
  .bind (asksNot_of_within (deliver_within _ _ _ _) rfl) fun _ =>
  asksNot_of_within (settle_within _ _ _ _) rfl

theorem process_asksNot (deployment : Deployment) (jobId : JobId) :
    AsksNot (JobService.process deployment jobId) := by
  refine .bind (.perform (by simp)) fun found => ?_
  cases found with
  | none => exact .perform (by simp)
  | some job =>
      dsimp only
      split
      · exact .perform (by simp)
      refine .bind (asksNot_of_within (check_within _ _) rfl) fun _ => ?_
      split
      · exact .bind (.perform (by simp)) fun _ =>
          asksNot_of_within (deferUntil_within _ _ _) rfl
      refine .bind (asksNot_of_within (take_within _ _ _ _) rfl) fun _ => ?_
      split
      · exact .bind (.perform (by simp)) fun _ =>
          asksNot_of_within (deferUntil_within _ _ _) rfl
      · exact deliverJob_asksNot _ _ _

theorem main_asksOnce (deployment : Deployment) (role : Role) :
    AsksOnce (role.main deployment) := by
  cases role with
  | enqueue input =>
      exact .inl (.bind (asksNot_of_within (enqueue_within input) rfl)
        fun _ => trivial)
  | replay limit =>
      exact .inl (.bind (asksNot_of_within (replayLoop_within limit []) rfl)
        fun _ => trivial)
  | worker =>
      refine .inr ⟨_, _, rfl, fun popped => ?_, fun failure => trivial⟩
      cases popped with
      | none => trivial
      | some jobId =>
          have leases : AsksNot (do
              let now ← await .now
              await (.zaddLease jobId (now + Queue.visibilityTimeoutMs))
              return some jobId : Async (Option JobId)) :=
            .bind (.perform (by simp)) fun _ =>
              .bind (.perform (by simp)) fun _ => trivial
          refine .bind (.bind leases.attempt fun reserved => ?_) fun _ =>
            trivial
          rcases reserved with _ | _ | jobId
          · trivial
          · trivial
          · exact .tryCatch (process_asksNot _ _) fun _ => trivial

variable {deployment : Deployment} {before after : State} {action : Action}

theorem AsksNot.request? {program : Async Result} (asksNot : AsksNot program) :
    program.request? ≠ some .brpoplpush := by
  cases program with
  | call request next rescue =>
      intro same
      exact asksNot.1 (Option.some.inj same)
  | _ => simp [Program.request?]

/-- After its next call the program asks for no job. -/
theorem AsksOnce.resume {call : Call} {next : call.Reply → Async Result}
    {rescue : AppError → Async Result}
    (asksOnce : AsksOnce (.call call next rescue)) :
    (∀ reply, AsksNot (next reply)) ∧
      ∀ failure, AsksNot (rescue failure) := by
  rcases asksOnce with asksNot | ⟨_, _, same, asksNot⟩
  · exact asksNot.2
  · cases same
    exact asksNot

/-- After any outcome of its call the program asks for no job. -/
theorem AsksOnce.asksNot_resume {call : Call}
    {next : call.Reply → Async Result} {rescue : AppError → Async Result}
    (asksOnce : AsksOnce (.call call next rescue))
    (outcome : Except AppError call.Reply) :
    AsksNot (Program.resume next rescue outcome) := by
  cases outcome with
  | ok reply => exact asksOnce.resume.1 reply
  | error failure => exact asksOnce.resume.2 failure

/-! ## Processes -/

/-- Every running program asks for a job at most once. -/
def State.AskOnce (state : State) : Prop :=
  ∀ pid process program, state.processes pid = some process →
    process.status = .running program → AsksOnce program

/-- The process has received `SIGTERM`. -/
def State.Winding (state : State) (pid : Pid) : Prop :=
  ∃ process, state.processes pid = some process ∧ process.quit = true

/-- How often a worker has asked for a job. -/
def asked (worker : Pid) (history : List Event) : Nat :=
  history.countP fun event =>
    decide (event.pid = worker ∧ event.call = .brpoplpush)

/-- How often it is about to. -/
def State.asking (state : State) (worker : Pid) : Nat :=
  if state.pending? worker = some .brpoplpush then 1 else 0

theorem Process.proceed_asksOnce {process : Process} {program : Async Result}
    {claim : Claim} (asksNot : AsksNot program) {continued : Async Result}
    (running : (process.proceed deployment program claim).status =
      .running continued) : AsksOnce continued := by
  rcases Process.proceed_running running with ⟨rfl, _⟩ | ⟨_, rfl, _⟩
  · exact .inl asksNot
  · exact main_asksOnce deployment .worker

/-- A process that winds down goes on with its program, and ends with it. -/
theorem Process.proceed_winding {process : Process} {program : Async Result}
    {claim : Claim} (quit : process.quit = true) :
    (process.proceed deployment program claim).quit = true ∧
      (process.proceed deployment program claim).pending? =
        program.request? := by
  have ends : ∀ outcome, (process.finish deployment outcome).quit = true ∧
      (process.finish deployment outcome).pending? = none := by
    intro outcome
    unfold Process.finish
    rw [if_neg (by simp [quit])]
    exact ⟨quit, rfl⟩
  cases program with
  | pure value => exact ends _
  | throw failure => exact ends _
  | call request next rescue => exact ⟨quit, rfl⟩

/-- A process that goes on after a call asks for no job before its next
iteration. -/
theorem Resumes.proceeds {pid : Pid} {choice : Choice} {process : Process}
    {call : Call} {next : call.Reply → Async Result}
    {rescue : AppError → Async Result}
    {resumed : Except AppError call.Reply → Process}
    (resumes : Resumes deployment pid choice process next rescue action
      resumed) (asksOnce : AsksOnce (.call call next rescue))
    (outcome : Except AppError call.Reply) :
    ∃ program claim, AsksNot program ∧
      resumed outcome = process.proceed deployment program claim := by
  cases resumes with
  | replied => exact ⟨_, _, asksOnce.asksNot_resume outcome, rfl⟩
  | unanswered => exact ⟨_, _, asksOnce.resume.2 _, rfl⟩

namespace State.AskOnce

theorem initial : State.initial.AskOnce := by
  intro pid process program found
  cases found

theorem update (asks : before.AskOnce) {pid : Pid} {process : Process}
    (own : ∀ program, process.status = .running program → AsksOnce program)
    (same : after.processes =
      Function.update before.processes pid (some process)) :
    after.AskOnce := by
  intro other found program there running
  rw [same, Function.update_apply] at there
  split at there
  · cases there
    exact own program running
  · exact asks other found program there running

theorem step (asks : before.AskOnce)
    (taken : step deployment before action = some after) : after.AskOnce := by
  cases steps_of_step taken with
  | @start pid role unused =>
      refine asks.update (fun program running => ?_) rfl
      rcases Process.proceed_running running with ⟨rfl, _⟩ | ⟨_, rfl, _⟩
      · exact main_asksOnce deployment role
      · exact main_asksOnce deployment .worker
  | @performed _ pid choice process call next rescue resumed found running
      connected resumes =>
      refine asks.update (fun program ran => ?_) rfl
      obtain ⟨continued, claim, asksNot, goes⟩ := resumes.proceeds
        (asks pid process _ found running)
        (exec deployment choice call before.store).1
      rw [goes] at ran
      exact Process.proceed_asksOnce asksNot ran
  | @failed pid failure process call next rescue found running =>
      refine asks.update (fun program ran => ?_) rfl
      exact Process.proceed_asksOnce
        ((asks pid process _ found running).resume.2 failure) ran
  | crashed =>
      refine asks.update (fun program running => ?_) rfl
      cases running
  | @shutdown pid process found =>
      refine asks.update (fun program running => ?_) rfl
      rw [Process.shutdown_status] at running
      exact asks pid process program found running
  | reaped =>
      intro pid process program found running
      obtain ⟨earlier, there, rfl⟩ := Option.map_eq_some_iff.mp found
      exact asks pid earlier program there running
  | promoted | ticked | registered | deleted => exact asks

end State.AskOnce

/-! ## What a worker asks for after its `SIGTERM` -/

section Steps

variable {worker : Pid}

theorem State.asking_of_found {state : State} {process : Process}
    (found : state.processes worker = some process)
    (quiet : process.pending? ≠ some .brpoplpush) :
    state.asking worker = 0 := by
  rw [State.asking, State.pending?, found]
  exact if_neg quiet

/-- The worker is left alone. -/
theorem State.Winding.unchanged (winding : before.Winding worker)
    (same : after.processes worker = before.processes worker)
    (count : asked worker after.history = asked worker before.history) :
    after.Winding worker ∧
      asked worker after.history + after.asking worker ≤
        asked worker before.history + before.asking worker := by
  have asking : after.asking worker = before.asking worker := by
    rw [State.asking, State.asking, State.pending?, State.pending?, same]
  rw [State.Winding, same, asking, count]
  exact ⟨winding, le_rfl⟩

/-- The worker goes on with a process that asks for nothing. -/
theorem State.Winding.goes_on {process : Process}
    (found : after.processes worker = some process)
    (quit : process.quit = true)
    (quiet : process.pending? ≠ some .brpoplpush)
    (count : asked worker after.history ≤
      asked worker before.history + before.asking worker) :
    after.Winding worker ∧
      asked worker after.history + after.asking worker ≤
        asked worker before.history + before.asking worker := by
  rw [State.asking_of_found found quiet]
  exact ⟨⟨process, found, quit⟩, count⟩

/-- A step of the system lets a worker that winds down ask for no more than it
was about to. -/
theorem State.Winding.step (asks : before.AskOnce)
    (winding : before.Winding worker)
    (taken : step deployment before action = some after) :
    after.Winding worker ∧
      asked worker after.history + after.asking worker ≤
        asked worker before.history + before.asking worker := by
  obtain ⟨own, mine, quit⟩ := winding
  have winding : before.Winding worker := ⟨own, mine, quit⟩
  cases steps_of_step taken with
  | @start pid role unused =>
      have other : worker ≠ pid := by
        rintro rfl
        cases mine.symm.trans unused
      exact winding.unchanged (before.setProcess_of_ne other _) rfl
  | @performed _ pid choice process call next rescue resumed found running
      connected resumes =>
      by_cases same : worker = pid
      · subst same
        cases mine.symm.trans found
        obtain ⟨continued, claim, asksNot, goes⟩ := resumes.proceeds
          (asks worker own _ found running)
          (exec deployment choice call before.store).1
        have later := before.perform_self deployment worker choice call resumed
        rw [goes] at later
        obtain ⟨quits, pending⟩ := @Process.proceed_winding deployment own
          continued claim quit
        refine Winding.goes_on later quits
          (pending ▸ asksNot.request?) ?_
        have about := State.pending?_of_running found running
        simp only [State.perform, asked, List.countP_cons, State.asking, about,
          Option.some.injEq, true_and, decide_eq_true_eq]
        exact le_rfl
      · refine winding.unchanged (before.perform_of_ne _ _ _ _ _ same) ?_
        have other : pid ≠ worker := fun equal => same equal.symm
        simp [State.perform, asked, other]
  | @failed pid failure process call next rescue found running =>
      by_cases same : worker = pid
      · subst same
        cases mine.symm.trans found
        obtain ⟨quits, pending⟩ := @Process.proceed_winding deployment own
          (rescue failure) own.claim.lost quit
        have asksNot :=
          (asks worker own _ found running).resume.2 failure
        exact Winding.goes_on (before.setProcess_self _ _) quits
          (pending ▸ asksNot.request?) (Nat.le_add_right _ _)
      · exact winding.unchanged (before.setProcess_of_ne same _) rfl
  | @crashed pid process found live =>
      by_cases same : worker = pid
      · subst same
        cases mine.symm.trans found
        exact Winding.goes_on (before.setProcess_self _ _) quit
          (by simp [Process.crash, Process.pending?]) (Nat.le_add_right _ _)
      · exact winding.unchanged (before.setProcess_of_ne same _) rfl
  | @shutdown pid process found =>
      by_cases same : worker = pid
      · subst same
        cases mine.symm.trans found
        have idle : own.shutdown = own := if_pos quit
        refine winding.unchanged ?_ rfl
        rw [State.setProcess_self, idle, mine]
      · exact winding.unchanged (before.setProcess_of_ne same _) rfl
  | @reaped nowMs batchSize =>
      have pending : (before.reap nowMs batchSize).pending? worker =
          before.pending? worker := by
        simp only [State.pending?, State.reap, mine, Option.map_some,
          Option.bind_some]
        rfl
      rw [State.asking, State.asking, pending]
      have reaped : (before.reap nowMs batchSize).processes worker =
          some { own with
            claim := own.claim.reaped
              (before.store.redis.reapScript nowMs batchSize).1 } := by
        simp only [State.reap, mine, Option.map_some]
      exact ⟨⟨_, reaped, quit⟩, le_rfl⟩
  | promoted | ticked | registered | deleted =>
      exact winding.unchanged rfl rfl

end Steps

/-- Once a worker has received `SIGTERM`, it asks for at most one more job in
any continuation of the run, and only if it was just about to. -/
theorem asks_no_more {first second : List Action} {worker : Pid}
    (starts : run (step deployment) State.initial first = some before)
    (winding : before.Winding worker)
    (runs : run (step deployment) before second = some after) :
    asked worker after.history ≤
      asked worker before.history + before.asking worker := by
  have asks : before.AskOnce := invariant_of_run starts .initial
    fun _ _ _ asks taken => asks.step taken
  have kept : (after.AskOnce ∧ after.Winding worker) ∧
      asked worker after.history + after.asking worker ≤
        asked worker before.history + before.asking worker :=
    @invariant_of_run _ _ _ (fun state : State =>
      (state.AskOnce ∧ state.Winding worker) ∧
        asked worker state.history + state.asking worker ≤
          asked worker before.history + before.asking worker) _ _ _ runs
      ⟨⟨asks, winding⟩, le_rfl⟩ fun _ _ _ kept taken => by
        obtain ⟨winding, fewer⟩ := kept.1.2.step kept.1.1 taken
        exact ⟨⟨kept.1.1.step taken, winding⟩, fewer.trans kept.2⟩
  omega

/-- A worker is told to stop when it has claimed the first of two jobs. -/
def toldToStop : List Action :=
  enqueueOne ++ [.start 5 (.enqueue exampleEvent), .call 5 {},
    .call 5 { uuid := 3 }] ++ calls 5 2 ++ .start 1 .worker :: calls 1 3 ++
      [.shutdown 1]

theorem asks_no_more_toldToStop :
    ∃ before after, run (step {}) State.initial toldToStop = some before ∧
      run (step {}) before (calls 1 18) = some after ∧
        (after.pending? 1).isNone ∧
          asked 1 before.history = 1 ∧ before.asking 1 = 0 ∧
            asked 1 after.history ≤
              asked 1 before.history + before.asking 1 := by
  have evaluated : (run (step {}) State.initial toldToStop).map
      (fun before => ((before.processes 1).map Process.quit,
        asked 1 before.history, before.asking 1,
        (run (step {}) before (calls 1 18)).map fun after =>
          (after.pending? 1).isNone)) =
        some (some true, 1, 0, some true) := by decide +kernel
  obtain ⟨before, starts, found⟩ := Option.map_eq_some_iff.mp evaluated
  simp only [Prod.mk.injEq] at found
  obtain ⟨quits, once, quiet, ends⟩ := found
  obtain ⟨after, runs, ended⟩ := Option.map_eq_some_iff.mp ends
  exact ⟨before, after, starts, runs, ended, once, quiet,
    asks_no_more starts (Option.map_eq_some_iff.mp quits) runs⟩

end WebhookDelivery
