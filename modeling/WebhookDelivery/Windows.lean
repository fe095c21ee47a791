import WebhookDelivery.QueueDiscipline

/-!
# The window of a delivery

`deliver` reads a number, sends a request with it, and only then inserts the
row.  Nothing else happens in between but readings of the clock and of the
response.
-/

namespace WebhookDelivery

open Concurrency Program Discipline

/-- How far a process is with a delivery. -/
inductive Window
  | closed
  /-- The number has been read. -/
  | numbered (jobId : JobId) (number : Nat)
  /-- `fetch` has been called; the row is still to come. -/
  | sent (jobId : JobId) (number : Nat)
  deriving DecidableEq

namespace Window

/-- The calls that a process makes in a window. -/
def Allows : Window → Call → Prop
  | .closed, .fetch _ => False
  | .closed, _ => True
  | .numbered _ _, .now => True
  | .numbered jobId number, .fetch request =>
      request.jobId = jobId ∧ request.attempt = number
  | .numbered _ _, _ => False
  | .sent _ _, .responseText => True
  | .sent _ _, .now => True
  | .sent jobId number, .insertAttempt record =>
      record.jobId = jobId ∧ record.attemptNumber = number
  | .sent _ _, _ => False

/-- The window after a call that took effect. -/
def after : Window → (call : Call) → Except AppError call.Reply → Window
  | .closed, .nextAttemptNumber jobId, .ok number => .numbered jobId number
  | .numbered jobId number, .now, _ => .numbered jobId number
  | .numbered jobId number, .fetch _, _ => .sent jobId number
  | .sent jobId number, .responseText, _ => .sent jobId number
  | .sent jobId number, .now, _ => .sent jobId number
  | _, _, _ => .closed

end Window

/-- A delivery goes through its window; where a reply is lost, it is over. -/
abbrev windowDiscipline : Discipline Call Call.Reply AppError where
  View := Window
  Rely before after := after = before
  rely_refl _ := rfl
  rely_trans := by
    rintro _ _ _ rfl rfl
    rfl
  Allowed := Window.Allows
  Fallible _ _ := True
  Effect window call outcome later :=
    call.Answers outcome ∧ later = window.after call outcome
  lost _ := .closed

namespace WindowDiscipline

variable {Value Next : Type} {program : Async Value} {window : Window}
  {jobId : JobId} {number : Nat}

/-- A program ends outside of windows. -/
abbrev Ends (window : Window) (_ : Except AppError Value) : Prop :=
  window = .closed

/-- The calls outside of windows. -/
def plain : Call → Bool
  | .fetch _ | .nextAttemptNumber _ => false
  | _ => true

/-- A program without deliveries opens no window. -/
theorem plain_follow (within : program.Within fun call => plain call) :
    windowDiscipline.Follows Ends program .closed := by
  refine Follows.of_within (fun window => window = .closed) within ?_ ?_ ?_ ?_
    (fun _ _ => id) rfl
  · rintro _ _ rfl rfl
    rfl
  · rintro _ call rfl unrelated
    cases call <;> trivial
  · exact fun _ => rfl
  · rintro _ call outcome _ rfl unrelated ⟨_, rfl⟩
    cases call <;> first | rfl | cases unrelated

theorem plain_of_gates {call : Call} (gates : call.gates) : plain call := by
  cases call <;> first | rfl | cases gates

theorem plain_of_settles {call : Call} (settles : call.settles) :
    plain call := by
  cases call <;> first | rfl | cases settles

theorem plain_of_reserves {call : Call} (reserves : call.reserves) :
    plain call := by
  cases call <;> first | rfl | cases reserves

theorem plain_of_replays {call : Call} (replays : call.replays) :
    plain call := by
  cases call <;> first | rfl | cases replays

theorem plain_of_enqueues {call : Call} (enqueues : call.enqueues) :
    plain call := by
  cases call <;> first | rfl | cases enqueues

/-- Sequencing outside of windows. -/
theorem follows_then {rest : Value → Async Next}
    (first : windowDiscipline.Follows Ends program .closed)
    (second : ∀ value, windowDiscipline.Follows Ends (rest value) .closed) :
    windowDiscipline.Follows Ends (program.bind rest) .closed := by
  refine Follows.bind (first.mono ?_)
  rintro _ (failure | value) rfl
  · rfl
  · exact second value

theorem gates_then {rest : Value → Async Next}
    (gates : program.Within fun call => call.gates)
    (second : ∀ value, windowDiscipline.Follows Ends (rest value) .closed) :
    windowDiscipline.Follows Ends (program.bind rest) .closed :=
  follows_then (plain_follow (gates.mono fun _ => plain_of_gates)) second

/-- One call of a delivery, whose failure ends it. -/
theorem follows_call {call : Call} {rest : call.Reply → Async Next}
    (allowed : window.Allows call)
    (fails : ∀ failure, call.Answers (.error failure) →
      window.after call (.error failure) = .closed)
    (replied : ∀ reply, windowDiscipline.Follows Ends (rest reply)
      (window.after call (.ok reply))) :
    windowDiscipline.Follows Ends ((await call).bind rest) window := by
  rintro _ rfl
  refine ⟨allowed, fun _ _ _ same => same, ?_⟩
  rintro outcome _ ⟨answers, rfl⟩
  refine ⟨fun _ _ _ same => same, ?_, ?_⟩
  · rintro failure rfl _ rfl
    exact fails failure answers
  · rintro reply rfl
    exact replied reply

/-- One call of a delivery, whose failure is caught. -/
theorem follows_attempt {call : Call}
    {rest : Except AppError call.Reply → Async Value}
    {post : Window → Except AppError Value → Prop}
    (allowed : window.Allows call)
    (lost : ∀ failure,
      windowDiscipline.Follows post (rest (.error failure)) .closed)
    (answered : ∀ outcome, windowDiscipline.Follows post (rest outcome)
      (window.after call outcome)) :
    windowDiscipline.Follows post ((attempt (await call)).bind rest)
      window := by
  rintro _ rfl
  refine ⟨allowed, fun _ failure => lost failure, ?_⟩
  rintro outcome _ ⟨_, rfl⟩
  refine ⟨fun _ failure => lost failure, ?_, ?_⟩
  · rintro failure rfl
    exact answered (.error failure)
  · rintro reply rfl
    exact answered (.ok reply)

/-- The request has been sent, unless a reply has been lost. -/
def Past (jobId : JobId) (number : Nat) (window : Window) : Prop :=
  window = .closed ∨ window = .sent jobId number

/-- The end of a program that does not throw. -/
theorem past_pure {value : Value} (past : Past jobId number window) :
    windowDiscipline.Follows (fun now outcome =>
      Past jobId number now ∧ ∃ value, outcome = .ok value)
      (.pure value : Async Value) window := by
  rintro _ rfl
  exact ⟨past, value, rfl⟩

/-- `send` calls `fetch` and reads the response, and never throws. -/
theorem send_follows (request : DeliveryRequest) :
    windowDiscipline.Follows (fun now outcome =>
      Past request.jobId request.attempt now ∧ ∃ value, outcome = .ok value)
      (DeliveryService.send request)
      (.numbered request.jobId request.attempt) := by
  refine follows_attempt ⟨rfl, rfl⟩ (fun _ => past_pure (.inl rfl)) ?_
  rintro (failure | status)
  · exact past_pure (.inr rfl)
  refine follows_attempt trivial (fun _ => past_pure (.inl rfl)) ?_
  rintro (failure | text)
  · exact past_pure (.inr rfl)
  · exact past_pure (.inr rfl)

/-- What is left of a delivery once the request has been sent. -/
theorem record_follows {record : AttemptRecord} {rest : Async Value}
    (past : Past record.jobId record.attemptNumber window)
    (ends : windowDiscipline.Follows Ends rest .closed) :
    windowDiscipline.Follows Ends
      ((await (.insertAttempt record)).bind fun _ => rest) window := by
  rcases past with rfl | rfl
  · exact follows_call trivial (fun _ _ => rfl) fun _ => ends
  · exact follows_call ⟨rfl, rfl⟩ (fun _ _ => rfl) fun _ => ends

theorem deliver_follows (deployment : Deployment) (job : Job)
    (webhookUrl secret : String) :
    windowDiscipline.Follows Ends
      (DeliveryService.deliver deployment job webhookUrl secret)
      .closed := by
  refine follows_call trivial (fun _ _ => rfl) fun attemptNumber => ?_
  refine follows_call trivial (fun _ => False.elim) fun startedAt => ?_
  refine follows_call trivial (fun _ => False.elim) fun timestamp => ?_
  refine Follows.bind ((send_follows _).mono ?_)
  rintro now _ ⟨past, sent, rfl⟩
  rcases past with rfl | rfl
  · refine follows_call trivial (fun _ => False.elim) fun endedAt => ?_
    exact record_follows (.inl rfl) fun _ same => same
  · refine follows_call trivial (fun _ => False.elim) fun endedAt => ?_
    exact record_follows (.inr rfl) fun _ same => same

theorem deliverJob_follows (deployment : Deployment) (jobId : JobId)
    (job : Job) :
    windowDiscipline.Follows Ends
      (JobService.deliverJob deployment jobId job) .closed := by
  refine follows_then (plain_follow (.perform rfl)) fun _ => ?_
  refine gates_then (getById_within _) fun webhook => ?_
  refine gates_then (getSecret_within _) fun secret => ?_
  refine follows_then (deliver_follows _ _ _ _) fun result => ?_
  exact plain_follow ((settle_within _ _ _ _).mono fun _ => plain_of_settles)

theorem process_follows (deployment : Deployment) (jobId : JobId) :
    windowDiscipline.Follows Ends (JobService.process deployment jobId)
      .closed := by
  refine follows_then (plain_follow (.perform rfl)) fun found => ?_
  cases found with
  | none => exact plain_follow (.perform rfl)
  | some job =>
      have deferred : ∀ runAtMs : Int, windowDiscipline.Follows Ends
          (JobService.deferUntil jobId job runAtMs) .closed := fun runAtMs =>
        plain_follow ((deferUntil_within _ _ _).mono fun _ => plain_of_settles)
      dsimp only
      split
      · exact plain_follow (.perform rfl)
      refine gates_then (check_within _ _) fun circuitState => ?_
      split
      · exact gates_then (.perform rfl) fun now => deferred _
      refine gates_then (take_within _ _ _ _) fun rate => ?_
      split
      · exact gates_then (.perform rfl) fun now => deferred _
      · exact deliverJob_follows deployment jobId job

theorem consume_follows (deployment : Deployment) :
    windowDiscipline.Follows Ends (Worker.consume deployment) .closed := by
  refine follows_then (plain_follow (Within.attempt
    (reserve_within.mono fun _ => plain_of_reserves))) fun reserved => ?_
  rcases reserved with failure | _ | jobId
  · exact fun _ same => same
  · exact fun _ same => same
  refine Follows.tryCatch ((process_follows deployment jobId).mono ?_)
  rintro _ (failure | done) rfl
  · exact fun _ same => same
  · rfl

/-- Every program opens and closes its windows in order. -/
theorem main_follows (deployment : Deployment) (role : Role) :
    windowDiscipline.Follows Ends (role.main deployment) .closed := by
  cases role with
  | enqueue input =>
      refine plain_follow (.bind ?_ fun _ => trivial)
      exact (enqueue_within input).mono fun _ => plain_of_enqueues
  | replay limit =>
      refine plain_follow (.bind ?_ fun _ => trivial)
      exact (replayLoop_within limit []).mono fun _ => plain_of_replays
  | worker =>
      refine follows_then (consume_follows deployment) fun _ => ?_
      exact fun _ same => same

end WindowDiscipline

end WebhookDelivery
