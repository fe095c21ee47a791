import WebhookDelivery.QueueInvariant
import WebhookDelivery.Windows

/-!
# Requests are sent under a claim

A worker sends requests only for the job that it has reserved, even when the
reaper has overruled its claim in the meantime.
-/

namespace WebhookDelivery

open Concurrency Program Discipline

/-- The request that a call sends. -/
def Call.request? : Call → Option DeliveryRequest
  | .fetch request => some request
  | _ => none

/-- A process sends requests for the job it works on. -/
abbrev sendDiscipline : Discipline Call Call.Reply AppError :=
  queueDiscipline.allowing fun claim call =>
    ∀ request, call.request? = some request → claim.Works request.jobId

namespace SendDiscipline

open QueueDiscipline
open WindowDiscipline (plain plain_of_gates plain_of_settles plain_of_reserves
  plain_of_replays plain_of_enqueues)

variable {Value Next : Type} {program : Async Value} {claim : Claim}
  {jobId : JobId} {post : Claim → Except AppError Value → Prop}

/-- The calls that send nothing. -/
abbrev quiet (call : Call) : Prop :=
  call.request? = none

theorem quiet_of_plain {call : Call} (plainly : plain call) :
    quiet call := by
  cases call <;> first | rfl | cases plainly

/-- A program that sends nothing is held to its claim alone. -/
theorem quiet_follow
    (follows : queueDiscipline.Follows post program claim)
    (within : program.Within fun call => plain call) :
    sendDiscipline.Follows post program claim := by
  apply follows.allowing within
  intro view call plainly _ request sends
  rw [quiet_of_plain plainly] at sends
  cases sends

theorem gates_follow (works : claim.Works jobId)
    (within : program.Within fun call => call.gates) :
    sendDiscipline.Follows (fun now _ => now.Works jobId) program claim :=
  quiet_follow (QueueDiscipline.gates_follow works within)
    (within.mono fun _ => plain_of_gates)

/-- Sequencing after a program that keeps to the job. -/
theorem follows_then {rest : Value → Async Next}
    (first : sendDiscipline.Follows (fun now _ => now.Works jobId) program
      claim)
    (second : ∀ value (now : Claim), now.Works jobId →
      sendDiscipline.Follows Settles (rest value) now) :
    sendDiscipline.Follows Settles (program.bind rest) claim := by
  refine Follows.bind (first.mono ?_)
  rintro now (failure | value) works
  · exact (settled_works jobId).settled works
  · exact second value now works

theorem deliver_follows {deployment : Deployment} {job : Job}
    {webhookUrl secret : String} (works : claim.Works job.id) :
    sendDiscipline.Follows (fun now _ => now.Works job.id)
      (DeliveryService.deliver deployment job webhookUrl secret) claim := by
  have settled := settled_works job.id
  refine Follows.of_within (fun now => now.Works job.id)
    (deliver_within deployment job webhookUrl secret) settled.stable ?_ ?_ ?_
    (fun _ _ => id) works
  · intro view call works delivers request sends
    cases call <;> cases sends
    have same : request.jobId = job.id := by
      simpa [Call.delivers] using delivers
    rw [same]
    exact works
  · intro view works
    show view.lost.Works job.id
    rw [Claim.lost_of_settled (settled.settled works)]
    exact works
  · rintro view call outcome after works delivers ⟨rfl, _⟩
    rw [Claim.after_of_spares view]
    · exact works
    · cases call <;> first | rfl | cases delivers

theorem deliverJob_follows {deployment : Deployment} {job : Job}
    (own : job.id = jobId) (works : claim.Works jobId) :
    sendDiscipline.Follows Settles
      (JobService.deliverJob deployment jobId job) claim := by
  subst own
  refine follows_then (quiet_follow (update_follows rfl works)
    (.perform rfl)) ?_
  intro _ _ works
  apply follows_then (gates_follow works (getById_within _))
  intro webhook _ works
  apply follows_then (gates_follow works (getSecret_within _))
  intro secret _ works
  apply follows_then (deliver_follows works)
  exact fun result _ works =>
    quiet_follow (settle_follows rfl works) ((settle_within _ _ _ _).mono
      fun _ => plain_of_settles)

theorem process_follows {deployment : Deployment}
    (works : claim.Works jobId) :
    sendDiscipline.Follows Settles (JobService.process deployment jobId)
      claim := by
  have settled := settled_works jobId
  intro now overruled
  have worksNow := settled.stable works overruled
  have settledNow := settled.settled worksNow
  have throws : ∀ {failure : AppError} {later : Claim},
      later.awaitsLease = false →
        sendDiscipline.Follows Settles (.throw failure : Async Unit) later :=
    fun settled => quiet_follow (settles_throw settled) trivial
  refine ⟨nofun, fun _ _ => throws (Claim.lost_settled _), ?_⟩
  rintro outcome _ ⟨rfl, answers⟩
  refine ⟨fun _ _ => throws (Claim.lost_settled _), ?_, ?_⟩
  · rintro failure rfl
    exact throws settledNow
  rintro (_ | job) rfl
  · exact quiet_follow (release_follows rfl worksNow) (.perform rfl)
  have own : job.id = jobId := answers
  show sendDiscipline.Follows _ (ite _ _ _) _
  split
  · exact quiet_follow (release_follows rfl worksNow) (.perform rfl)
  apply follows_then (gates_follow worksNow (check_within _ _))
  intro circuitState _ works
  split
  · apply follows_then (gates_follow works (.perform rfl))
    exact fun _ _ works => quiet_follow (deferUntil_follows own works)
      ((deferUntil_within _ _ _).mono fun _ => plain_of_settles)
  apply follows_then (gates_follow works (take_within _ _ _ _))
  intro rate _ works
  split
  · apply follows_then (gates_follow works (.perform rfl))
    exact fun _ _ works => quiet_follow (deferUntil_follows own works)
      ((deferUntil_within _ _ _).mono fun _ => plain_of_settles)
  · exact deliverJob_follows own works

theorem consume_follows (deployment : Deployment) :
    sendDiscipline.Follows Settles (Worker.consume deployment) .none := by
  refine Follows.bind (Follows.attempt
    ((quiet_follow reserve_follows
      (reserve_within.mono fun _ => plain_of_reserves)).mono ?_))
  rintro claim (failure | _ | jobId) ⟨settled, works⟩
  · exact quiet_follow (settles_pure settled) trivial
  · exact quiet_follow (settles_pure settled) trivial
  refine Follows.tryCatch ((process_follows (works jobId rfl)).mono ?_)
  rintro now (failure | value) settled
  · exact quiet_follow (settles_pure settled) trivial
  · exact settled

theorem main_follows (deployment : Deployment) (role : Role) :
    sendDiscipline.Follows Settles (role.main deployment) .none := by
  cases role with
  | enqueue input =>
      apply quiet_follow (QueueDiscipline.main_follows deployment _)
      exact .bind ((enqueue_within input).mono fun _ => plain_of_enqueues)
        fun _ => trivial
  | replay limit =>
      apply quiet_follow (QueueDiscipline.main_follows deployment _)
      exact .bind ((replayLoop_within limit []).mono
        fun _ => plain_of_replays) fun _ => trivial
  | worker =>
      refine Follows.bind ((consume_follows deployment).mono ?_)
      rintro now (failure | done) settled
      · exact settled
      · exact quiet_follow (settles_pure settled) trivial

end SendDiscipline

/-- Every process sends requests for the job it works on. -/
abbrev State.SendsUnderClaim (state : State) : Prop :=
  state.Disciplined sendDiscipline (fun _ claim _ => claim)
    QueueDiscipline.Settles

variable {deployment : Deployment} {before after : State} {action : Action}

namespace State.SendsUnderClaim

theorem initial : State.initial.SendsUnderClaim := by
  intro _ _ _ found
  cases found

theorem step (underClaim : before.SendsUnderClaim)
    (taken : WebhookDelivery.step deployment before action = some after) :
    after.SendsUnderClaim := by
  have respects := queueDiscipline_respects taken
  exact State.Disciplined.step underClaim taken
    (fun _ process _ _ => SendDiscipline.main_follows _ process.role)
    ⟨respects.performed, respects.unanswered, respects.failed,
      respects.others⟩

theorem works {state : State} (underClaim : state.SendsUnderClaim) {pid : Pid}
    {request : DeliveryRequest}
    (pending : state.pending? pid = some (.fetch request)) :
    (state.claim pid).Works request.jobId := by
  exact underClaim.allowed pending request rfl

end State.SendsUnderClaim

end WebhookDelivery
