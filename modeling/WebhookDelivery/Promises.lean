import WebhookDelivery.QueueInvariant
import WebhookDelivery.TraceInvariant

/-!
# What a worker promises when it writes a wait

Once `process` has written the time of the next try into the row of its job,
the only call left to it is the one that moves the job to `delayed` under the
same time.
-/

namespace WebhookDelivery

open Concurrency Program Discipline

/-- The wait that a call has written into the row of a job. -/
def Call.postpones? :
    (call : Call) → Except AppError call.Reply → Option (JobId × Int)
  | .updateState update, .ok (some _) =>
      update.runAt.map fun runAt => (update.id, runAt)
  | _, _ => none

def Event.postponed? (event : Event) : Option (JobId × Int) :=
  event.call.postpones? event.outcome

/-- The wait that a process with a claim has written with its last call. -/
def State.promise (pid : Pid) (claim : Claim) (state : State) :
    Option (JobId × Int) :=
  claim.job?.bind fun _ => (state.own pid).head?.bind Event.postponed?

/-- A worker that has written a wait moves the job to `delayed` next, under
the time it has written. -/
abbrev promiseDiscipline : Discipline Call Call.Reply AppError where
  View := Option (JobId × Int)
  Rely before after := ∀ wait, after = some wait → before = some wait
  rely_refl _ _ := id
  rely_trans first second wait kept := first wait (second wait kept)
  Allowed view call := ∀ wait, view = some wait →
    call = .retryLater wait.1 wait.2
  Fallible _ _ := True
  Effect _ call outcome after := call.Answers outcome ∧
    ∀ wait, after = some wait → call.postpones? outcome = some wait
  lost view := view

namespace PromiseDiscipline

variable {Value Next : Type} {program : Async Value}

/-- Any end is fine. -/
abbrev Ends (_ : Option (JobId × Int)) (_ : Except AppError Value) : Prop :=
  True

/-- The calls that write no wait. -/
def timeless (call : Call) : Bool :=
  match call with
  | .updateState update => update.runAt.isNone
  | _ => true

theorem postpones?_of_timeless {call : Call} (writesNone : timeless call)
    (outcome : Except AppError call.Reply) :
    call.postpones? outcome = none := by
  cases call with
  | updateState update =>
      have none : update.runAt = none := by
        simpa [timeless] using writesNone
      unfold Call.postpones?
      split
      next written same =>
        cases same
        simp [none]
      · rfl
  | _ => rfl

/-- Nothing is promised as long as nothing has been. -/
theorem nothing_of_rely {now : Option (JobId × Int)}
    (rely : promiseDiscipline.Rely none now) : now = none := by
  cases now with
  | none => rfl
  | some wait => exact (rely wait rfl).symm

/-- Nothing is promised by a call that writes no wait. -/
theorem nothing_of_written {call : Call} {outcome : Except AppError call.Reply}
    {after : Option (JobId × Int)}
    (written : ∀ wait, after = some wait →
      call.postpones? outcome = some wait)
    (writesNone : call.postpones? outcome = none := by rfl) :
    after = none := by
  cases after with
  | none => rfl
  | some wait => exact (written wait rfl).symm.trans writesNone

/-- A program that writes no wait promises nothing. -/
theorem timeless_follow (within : program.Within fun call => timeless call) :
    promiseDiscipline.Follows (fun now _ => now = none) program none := by
  refine Follows.of_within (fun view => view = none) within ?_ ?_ id ?_
    (fun _ _ => id) rfl
  · rintro _ now rfl rely
    exact nothing_of_rely rely
  · rintro _ call rfl _ wait kept
    cases kept
  · intro view call outcome after _ writesNone effect
    exact nothing_of_written effect.2 (postpones?_of_timeless writesNone _)

theorem timeless_ends (within : program.Within fun call => timeless call) :
    promiseDiscipline.Follows Ends program none :=
  (timeless_follow within).mono fun _ _ _ => trivial

/-- Sequencing after a program that writes no wait. -/
theorem follows_then {rest : Value → Async Next}
    (first : program.Within fun call => timeless call)
    (second : ∀ value, promiseDiscipline.Follows Ends (rest value) none) :
    promiseDiscipline.Follows Ends (program.bind rest) none := by
  refine Follows.bind ((timeless_follow first).mono ?_)
  rintro _ outcome rfl
  cases outcome with
  | ok value => exact second value
  | error failure => trivial

/-- A wait is written, and the job moved to `delayed` until then. -/
theorem postpone_follows {jobId : JobId} {runAtMs : Int}
    {update : StateUpdate} (own : update.id = jobId)
    (waits : update.runAt = some runAtMs) :
    promiseDiscipline.Follows Ends
      ((JobRepository.updateState update).bind fun _ =>
        Queue.retryLater jobId runAtMs) none := by
  intro now rely
  have nothing : now = none := nothing_of_rely rely
  subst nothing
  refine ⟨nofun, fun _ _ _ _ => trivial, fun outcome after effect => ?_⟩
  refine ⟨fun _ _ _ _ => trivial, fun _ _ _ _ => trivial, ?_⟩
  rintro reply rfl now rely
  refine ⟨fun wait kept => ?_, fun _ _ _ _ => trivial, fun _ _ _ => ?_⟩
  · have written := effect.2 wait (rely wait kept)
    cases reply with
    | none => cases written
    | some job =>
        simp only [Call.postpones?, waits, Option.map_some,
          Option.some.injEq] at written
        rw [← written, own]
  · exact ⟨fun _ _ _ _ => trivial, fun _ _ _ _ => trivial,
      fun _ _ _ _ => trivial⟩

/-! ## The programs -/

theorem timeless_of_gates {call : Call} (gates : call.gates) :
    timeless call := by
  cases call <;> first | rfl | cases gates

theorem timeless_of_enqueues {call : Call} (enqueues : call.enqueues) :
    timeless call := by
  cases call <;> first | rfl | cases enqueues

theorem timeless_of_delivers {jobId : JobId} {call : Call}
    (delivers : call.delivers jobId) : timeless call := by
  cases call <;> first | rfl | cases delivers

theorem timeless_of_replays {call : Call} (replays : call.replays) :
    timeless call := by
  cases call <;> first | rfl | cases replays

theorem timeless_of_reserves {call : Call} (reserves : call.reserves) :
    timeless call := by
  cases call <;> first | rfl | cases reserves

theorem settle_follows (deployment : Deployment) {jobId : JobId} {job : Job}
    (own : job.id = jobId) (result : DeliveryService.DeliveryResult) :
    promiseDiscipline.Follows Ends
      (JobService.settle deployment jobId job result) none := by
  unfold JobService.settle
  split
  · refine timeless_ends (.bind (.perform rfl) fun _ => ?_)
    exact .bind (.perform rfl) fun _ => .perform rfl
  · refine follows_then ((recordFailure_within _ _).mono
      fun _ => timeless_of_gates) fun _ => ?_
    dsimp only
    split
    · exact timeless_ends (.bind (.perform rfl) fun _ => .perform rfl)
    · refine follows_then ((backoffMs_within _).mono
        fun _ => timeless_of_gates) fun delayMs => ?_
      exact follows_then (.perform rfl) fun now => postpone_follows own rfl

theorem deliverJob_follows (deployment : Deployment) {jobId : JobId}
    {job : Job} (own : job.id = jobId) :
    promiseDiscipline.Follows Ends
      (JobService.deliverJob deployment jobId job) none := by
  refine follows_then (.perform rfl) fun _ => ?_
  refine follows_then ((getById_within _).mono fun _ => timeless_of_gates)
    fun webhook => ?_
  refine follows_then ((getSecret_within _).mono fun _ => timeless_of_gates)
    fun secret => ?_
  refine follows_then ((deliver_within _ _ _ _).mono
    fun _ => timeless_of_delivers) fun result => ?_
  exact settle_follows deployment own result

theorem process_follows (deployment : Deployment) (jobId : JobId) :
    promiseDiscipline.Follows Ends (JobService.process deployment jobId)
      none := by
  intro now rely
  have nothing : now = none := nothing_of_rely rely
  subst nothing
  refine ⟨nofun, fun _ _ _ _ => trivial, fun outcome after effect => ?_⟩
  have still : after = none := nothing_of_written effect.2
  subst still
  refine ⟨fun _ _ _ _ => trivial, fun _ _ _ _ => trivial, ?_⟩
  rintro found rfl
  cases found with
  | none => exact timeless_ends (.perform rfl)
  | some job =>
      have own : job.id = jobId := effect.1
      change promiseDiscipline.Follows Ends (if _ then _ else _) none
      split
      · exact timeless_ends (.perform rfl)
      · refine follows_then ((check_within _ _).mono
          fun _ => timeless_of_gates) fun circuitState => ?_
        split
        · exact follows_then (.perform rfl) fun now =>
            postpone_follows own rfl
        · refine follows_then ((take_within _ _ _ _).mono
            fun _ => timeless_of_gates) fun rate => ?_
          split
          · exact follows_then (.perform rfl) fun now =>
              postpone_follows own rfl
          · exact deliverJob_follows deployment own

theorem consume_follows (deployment : Deployment) :
    promiseDiscipline.Follows Ends (Worker.consume deployment) none := by
  have reserve := reserve_within.mono fun _ => timeless_of_reserves
  refine follows_then reserve.attempt fun reserved => ?_
  rcases reserved with failure | _ | jobId
  · exact fun _ _ => trivial
  · exact fun _ _ => trivial
  refine Follows.tryCatch ((process_follows deployment jobId).mono ?_)
  rintro now (failure | done) _
  · exact fun _ _ => trivial
  · trivial

/-- Every program keeps its promises. -/
theorem main_follows (deployment : Deployment) (role : Role) :
    promiseDiscipline.Follows Ends (role.main deployment) none := by
  cases role with
  | enqueue input =>
      refine follows_then ((enqueue_within input).mono
        fun _ => timeless_of_enqueues) fun _ => ?_
      exact timeless_ends trivial
  | replay limit =>
      refine follows_then ((replayLoop_within limit []).mono
        fun _ => timeless_of_replays) fun _ => ?_
      exact timeless_ends trivial
  | worker =>
      refine Follows.bind ((consume_follows deployment).mono ?_)
      rintro now (failure | done) _
      · trivial
      · exact fun _ _ => trivial

end PromiseDiscipline

/-! ## Promises in a run -/

variable {deployment : Deployment} {before after : State} {action : Action}

/-- A promise is about the claim of its process at most in so far as there is
one. -/
theorem State.promise_congr {pid : Pid} {claim other : Claim}
    {state later : State} (sameJob : other.job? = claim.job? ∨ other = .none)
    (sameOwn : later.own pid = state.own pid) :
    promiseDiscipline.Rely (state.promise pid claim)
      (later.promise pid other) := by
  intro wait kept
  rcases sameJob with same | rfl
  · simpa only [State.promise, same, sameOwn] using kept
  · cases kept

theorem promiseDiscipline_respects
    (taken : step deployment before action = some after) :
    Respects deployment promiseDiscipline State.promise before action
      after where
  performed {pid choice process call next rescue resumed} found running
      resumes same := by
    refine ⟨exec_answers _ _ _ _, fun wait kept => ?_⟩
    subst same
    simp only [State.promise, Option.bind_eq_some_iff] at kept
    obtain ⟨_, _, event, latest, postponed⟩ := kept
    have own := @own_cons (before.perform deployment pid choice call resumed)
      pid _ _ rfl
    rw [own, if_pos rfl] at latest
    cases latest
    exact postponed
  unanswered {pid call choice failure} pending same := by
    refine ⟨trivial, State.promise_congr ?_ rfl⟩
    rcases Claim.lost_cases ((before.claim pid).after call
      (exec deployment choice call before.store).1) with kept | gone
    · exact .inl (congrArg Claim.job? kept)
    · exact .inr gone
  failed {pid call failure} pending same := by
    refine ⟨trivial, State.promise_congr ?_ (own_of_other taken ?_)⟩
    · rcases Claim.lost_cases (before.claim pid) with kept | gone
      · exact .inl (congrArg Claim.job? kept)
      · exact .inr gone
    · rw [same]
      simp [Action.performer?]
  others {pid} other := by
    refine State.promise_congr ?_ (own_of_other taken fun performs =>
      other (Action.actor?_of_performer? performs))
    rcases overruled_of_other taken other with same | ⟨jobId, was, now⟩
    · exact .inl (congrArg Claim.job? same)
    · rw [was, now]
      exact .inl rfl

/-- Every process keeps its promises. -/
abbrev State.Promising (state : State) : Prop :=
  state.Disciplined promiseDiscipline State.promise PromiseDiscipline.Ends

theorem State.Promising.initial : State.initial.Promising := by
  intro _ _ _ found
  cases found

theorem State.Promising.step (promising : before.Promising)
    (taken : WebhookDelivery.step deployment before action = some after) :
    after.Promising :=
  State.Disciplined.step promising taken
    (fun _ process _ _ => PromiseDiscipline.main_follows _ process.role)
    (promiseDiscipline_respects taken)

end WebhookDelivery
