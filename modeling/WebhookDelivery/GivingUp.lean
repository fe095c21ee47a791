import WebhookDelivery.Footprints
import WebhookDelivery.Processes

/-!
# When a process gives up

Nobody but the reaper takes a job from a process.  A process that has one in
hand goes on until it has put it somewhere, unless it crashes, a call fails, a
reply gets lost, or an answer tells it that it cannot go on.
-/

namespace WebhookDelivery

open Concurrency

/-- The answers after which a process gives up what it has in hand: an error
that it does not catch, no webhook or no secret, no row to reset, and the one to
the release of a slot, with which a failed `enqueue` ends. -/
def Call.discourages : (call : Call) → Except AppError call.Reply → Bool
  | .fetch _, _ | .responseText, _ => false
  | .findWebhook _, .ok webhook => webhook.isNone
  | .findSecret _, .ok secret => secret.all fun text => decide (text = "")
  | .resetForReplay _, .ok job => job.isNone
  | .delSlot _, .ok _ => true
  | _, .error _ => true
  | _, .ok _ => false

/-- What a process has in hand. -/
inductive Hand
  | empty
  | full
  /-- A job, but something has gone wrong. -/
  | slack
  deriving DecidableEq

namespace Hand

/-- What a process still has in hand after a call on something else. -/
def goOn (discouraged : Bool) : Hand → Hand
  | .empty => .empty
  | _ => if discouraged then .slack else .full

/-- What a process has in hand after a call that took effect. -/
def after (hand : Hand) : (call : Call) → Except AppError call.Reply → Hand
  | .brpoplpush, .ok (some _) => .full
  | .zaddLease _ _, .ok _ => .full
  | .insertJob _, .ok _ => .full
  | .popDlq, .ok (some _) => .full
  | .ack _, .ok _ => .empty
  | .retryLater _ _, .ok _ => .empty
  | .deadLetter _, .ok _ => .empty
  | .push _, .ok _ => .empty
  | .pushDelayed _ _, .ok _ => .empty
  | .resetForReplay _, .ok none => .empty
  | call, outcome => hand.goOn (call.discourages outcome)

/-- And after a call that has failed. -/
def lost (hand : Hand) : Hand := hand.goOn true

/-- The hand is not empty while the claim is on a job. -/
def Knows (hand : Hand) (claim : Claim) : Prop :=
  claim.holds? ≠ none → hand ≠ .empty

variable {hand : Hand} {claim : Claim} {call : Call}
  {outcome : Except AppError call.Reply}

theorem lost_ne_full : hand.lost ≠ .full := by
  cases hand <;> simp [lost, goOn]

theorem after_of_discourages (discourages : call.discourages outcome = true) :
    hand.after call outcome ≠ .full := by
  unfold after
  split
  case h_11 => cases hand <;> simp [goOn, discourages]
  all_goals simp [Call.discourages] at discourages ⊢

theorem after_eq_full (encouraged : call.discourages outcome = false)
    (filled : hand.after call outcome ≠ .empty) :
    hand.after call outcome = .full := by
  unfold after at filled ⊢
  split at filled
  case h_11 => cases hand <;> simp [goOn, encouraged] at filled ⊢
  all_goals first | rfl | exact absurd rfl filled

theorem goOn_ne_empty {discouraged : Bool} (filled : hand ≠ .empty) :
    hand.goOn discouraged ≠ .empty := by
  cases hand <;> cases discouraged <;> simp [goOn] at filled ⊢

theorem Knows.lost (knows : hand.Knows claim) : hand.lost.Knows claim.lost := by
  intro holds
  refine goOn_ne_empty (knows fun none => holds ?_)
  cases claim <;> first | exact none | rfl

theorem Knows.reaped (knows : hand.Knows claim) (jobIds : List JobId) :
    hand.Knows (claim.reaped jobIds) := by
  intro holds
  refine knows fun none => holds ?_
  unfold Claim.reaped
  split
  · split
    · rfl
    · exact none
  · exact none

theorem Knows.after (knows : hand.Knows claim) :
    (hand.after call outcome).Knows (claim.after call outcome) := by
  intro holds
  unfold Hand.after
  split
  case h_11 others =>
    refine goOn_ne_empty (knows fun none => holds ?_)
    unfold Claim.after
    split <;> first | exact none | rfl | simp_all
  all_goals first | simp; done | exact absurd rfl holds

end Hand

/-! ## The programs -/

open Program Discipline

/-- A process that knows what it has in hand. -/
abbrev handDiscipline : Discipline Call Call.Reply AppError where
  View := Hand
  Rely before after := after = before
  rely_refl _ := rfl
  rely_trans := by
    rintro _ _ _ rfl rfl
    rfl
  Allowed _ _ := True
  Fallible _ call := call.onStore = true
  Effect hand call outcome later := later = hand.after call outcome
  lost := Hand.lost

namespace HandDiscipline

variable {Value Next : Type} {program : Async Value} {hand : Hand}
  {call : Call}

/-- A part of a program that throws only when its hand is empty or something
has gone wrong. -/
def Careful (returns : Hand → Value → Prop) (hand : Hand) :
    Except AppError Value → Prop
  | .ok value => returns hand value
  | .error _ => hand ≠ .full

/-- It ends so as well. -/
abbrev Ends : Hand → Except AppError Value → Prop :=
  Careful fun hand _ => hand ≠ .full

/-- It keeps its job. -/
abbrev Keeps : Hand → Except AppError Value → Prop :=
  Careful fun hand _ => hand = .full

/-- It puts its job somewhere. -/
abbrev Places : Hand → Except AppError Value → Prop :=
  Careful fun hand _ => hand = .empty

theorem follows_pure {post : Hand → Except AppError Value → Prop}
    {value : Value} (ends : post hand (.ok value)) :
    handDiscipline.Follows post (.pure value : Async Value) hand := by
  rintro _ rfl
  exact ends

theorem follows_throw {post : Hand → Except AppError Value → Prop}
    {failure : AppError} (ends : post hand (.error failure)) :
    handDiscipline.Follows post (.throw failure : Async Value) hand := by
  rintro _ rfl
  exact ends

/-- One call whose failure is not caught, and what follows its replies. -/
theorem follows_call {rest : call.Reply → Async Next}
    {returns : Hand → Next → Prop}
    (uncaught : ∀ failure, call.discourages (.error failure) = true)
    (replied : ∀ reply, handDiscipline.Follows (Careful returns) (rest reply)
      (hand.after call (.ok reply))) :
    handDiscipline.Follows (Careful returns) ((await call).bind rest)
      hand := by
  rintro _ rfl
  refine ⟨trivial, fun _ _ => follows_throw Hand.lost_ne_full, ?_⟩
  rintro outcome _ rfl
  refine ⟨fun _ _ => follows_throw Hand.lost_ne_full, ?_, ?_⟩
  · rintro failure rfl
    exact follows_throw (Hand.after_of_discourages (uncaught failure))
  · rintro reply rfl
    exact replied reply

/-- A last call. -/
theorem follows_last {returns : Hand → call.Reply → Prop}
    (uncaught : ∀ failure, call.discourages (.error failure) = true)
    (ends : ∀ reply, returns (hand.after call (.ok reply)) reply) :
    handDiscipline.Follows (Careful returns) (await call) hand := by
  show handDiscipline.Follows _ ((await call).bind .pure) hand
  exact follows_call uncaught fun reply => follows_pure (ends reply)

/-- A call whose failure is caught at once. -/
theorem follows_caught {rest : Except AppError call.Reply → Async Next}
    {post : Hand → Except AppError Next → Prop}
    (offStore : call.onStore = false)
    (caught : ∀ outcome, hand.after call outcome = hand)
    (following : ∀ outcome, handDiscipline.Follows post (rest outcome) hand) :
    handDiscipline.Follows post ((attempt (await call)).bind rest) hand := by
  have never : ¬call.onStore = true := by simp [offStore]
  rintro _ rfl
  refine ⟨trivial, fun fallible => absurd fallible never, ?_⟩
  rintro outcome _ rfl
  rw [caught]
  refine ⟨fun fallible => absurd fallible never, ?_, ?_⟩
  · rintro failure rfl
    exact following (.error failure)
  · rintro reply rfl
    exact following (.ok reply)

/-- Sequencing after a part that keeps its job. -/
theorem follows_then {rest : Value → Async Next}
    {returns : Hand → Next → Prop}
    (first : handDiscipline.Follows Keeps program hand)
    (second : ∀ value,
      handDiscipline.Follows (Careful returns) (rest value) .full) :
    handDiscipline.Follows (Careful returns) (program.bind rest) hand := by
  refine Follows.bind (first.mono ?_)
  rintro now (failure | value) keeps
  · exact keeps
  · exact keeps ▸ second value

/-- A program that takes up no job ends with its hands empty. -/
theorem empty_follow (within : program.Within fun call => call.inert) :
    handDiscipline.Follows (fun now _ => now = .empty) program .empty := by
  refine Follows.of_within (fun now => now = .empty) within ?_
    (fun _ _ => trivial) ?_ ?_ (fun _ _ => id) rfl
  · rintro _ _ rfl rfl
    rfl
  · rintro _ rfl
    rfl
  · rintro _ call outcome _ rfl inert rfl
    cases call <;> first | rfl | cases inert

theorem empty_then {rest : Value → Async Next}
    (within : program.Within fun call => call.inert)
    (second : ∀ value, handDiscipline.Follows Ends (rest value) .empty) :
    handDiscipline.Follows Ends (program.bind rest) .empty := by
  refine Follows.bind ((empty_follow within).mono ?_)
  rintro _ (failure | value) rfl
  · simp [Careful]
  · exact second value

/-! ### The worker -/

/-- `reserve` has its hand full exactly when it returns an id. -/
theorem reserve_follows :
    handDiscipline.Follows (Careful fun now (found : Option JobId) =>
      now = .full ↔ found.isSome = true) Queue.reserve .empty := by
  refine follows_call (fun _ => rfl) ?_
  rintro (_ | jobId)
  · exact follows_pure (by simp [Careful, Hand.after, Hand.goOn])
  refine follows_call (fun _ => rfl) fun now => ?_
  refine follows_call (fun _ => rfl) fun _ => ?_
  exact follows_pure (iff_of_true rfl rfl)

theorem update_follows (update : StateUpdate) :
    handDiscipline.Follows Keeps (JobRepository.updateState update) .full :=
  follows_last (fun _ => rfl) fun _ => rfl

theorem release_follows {call : Call}
    (uncaught : ∀ failure, call.discourages (.error failure) = true)
    (releases : ∀ reply, Hand.full.after call (.ok reply) = .empty) :
    handDiscipline.Follows Ends (await call) .full :=
  follows_last uncaught fun reply => by simp [releases reply]

theorem now_follows : handDiscipline.Follows Keeps (await .now) .full :=
  follows_last (fun _ => rfl) fun _ => rfl

theorem deferUntil_follows (jobId : JobId) (job : Job) (runAtMs : Int) :
    handDiscipline.Follows Ends (JobService.deferUntil jobId job runAtMs)
      .full :=
  follows_then (update_follows _) fun _ =>
    release_follows (fun _ => rfl) fun _ => rfl

theorem settle_follows (deployment : Deployment) (jobId : JobId) (job : Job)
    (result : DeliveryService.DeliveryResult) :
    handDiscipline.Follows Ends
      (JobService.settle deployment jobId job result) .full := by
  unfold JobService.settle
  split
  · refine follows_call (fun _ => rfl) fun _ => ?_
    refine follows_then (update_follows _) fun _ => ?_
    exact release_follows (fun _ => rfl) fun _ => rfl
  · refine follows_then ?_ fun _ => ?_
    · refine follows_call (fun _ => rfl) fun now => ?_
      exact follows_last (fun _ => rfl) fun _ => rfl
    dsimp only
    split
    · refine follows_then (update_follows _) fun _ => ?_
      exact release_follows (fun _ => rfl) fun _ => rfl
    · refine follows_then ?_ fun delayMs => ?_
      · exact follows_call (fun _ => rfl) fun dice =>
          follows_pure rfl
      refine follows_then now_follows fun now => ?_
      refine follows_then (update_follows _) fun _ => ?_
      exact release_follows (fun _ => rfl) fun _ => rfl

theorem getById_follows (id : WebhookId) :
    handDiscipline.Follows Keeps (WebhookService.getById id) .full := by
  refine follows_call (fun _ => rfl) ?_
  rintro (_ | webhook)
  · exact follows_throw (by
      simp [Careful, Hand.after, Hand.goOn, Call.discourages])
  · exact follows_pure rfl

theorem getSecret_follows (id : WebhookId) :
    handDiscipline.Follows Keeps (WebhookService.getSecret id) .full := by
  refine follows_call (fun _ => rfl) ?_
  rintro (_ | secret)
  · exact follows_throw (by
      simp [Careful, Hand.after, Hand.goOn, Call.discourages])
  dsimp only
  split
  next empty =>
    exact follows_throw (by
      simp [Careful, Hand.after, Hand.goOn, Call.discourages, empty])
  next signs =>
    exact follows_pure (by
      simp [Careful, Hand.after, Hand.goOn, Call.discourages, signs])

/-- `send` never throws. -/
theorem send_follows (request : DeliveryRequest) :
    handDiscipline.Follows Keeps (DeliveryService.send request) .full := by
  refine follows_caught rfl (fun _ => rfl) ?_
  rintro (failure | status)
  · exact follows_pure rfl
  refine follows_caught rfl (fun _ => rfl) ?_
  rintro (failure | text)
  · exact follows_pure rfl
  · exact follows_pure rfl

theorem deliver_follows (deployment : Deployment) (job : Job)
    (webhookUrl secret : String) :
    handDiscipline.Follows Keeps
      (DeliveryService.deliver deployment job webhookUrl secret) .full := by
  refine follows_call (fun _ => rfl) fun attemptNumber => ?_
  refine follows_call (fun _ => rfl) fun startedAt => ?_
  refine follows_call (fun _ => rfl) fun timestamp => ?_
  refine follows_then (send_follows _) fun sent => ?_
  refine follows_call (fun _ => rfl) fun endedAt => ?_
  refine follows_call (fun _ => rfl) fun _ => ?_
  exact follows_pure rfl

theorem deliverJob_follows (deployment : Deployment) (jobId : JobId)
    (job : Job) :
    handDiscipline.Follows Ends (JobService.deliverJob deployment jobId job)
      .full := by
  refine follows_then (update_follows _) fun _ => ?_
  refine follows_then (getById_follows _) fun webhook => ?_
  refine follows_then (getSecret_follows _) fun secret => ?_
  refine follows_then (deliver_follows _ _ _ _) fun result => ?_
  exact settle_follows deployment jobId job result

theorem process_follows (deployment : Deployment) (jobId : JobId) :
    handDiscipline.Follows Ends (JobService.process deployment jobId)
      .full := by
  refine follows_call (fun _ => rfl) ?_
  rintro (_ | job)
  · exact release_follows (fun _ => rfl) fun _ => rfl
  show handDiscipline.Follows Ends (ite _ _ _) _
  split
  · exact release_follows (fun _ => rfl) fun _ => rfl
  refine follows_then ?_ fun circuitState => ?_
  · refine follows_call (fun _ => rfl) fun now => ?_
    exact follows_last (fun _ => rfl) fun _ => rfl
  split
  · refine follows_then now_follows fun now => ?_
    exact deferUntil_follows _ _ _
  refine follows_then ?_ fun rate => ?_
  · refine follows_call (fun _ => rfl) fun now => ?_
    exact follows_last (fun _ => rfl) fun _ => rfl
  split
  · refine follows_then now_follows fun now => ?_
    exact deferUntil_follows _ _ _
  · exact deliverJob_follows deployment jobId job

theorem consume_follows (deployment : Deployment) :
    handDiscipline.Follows Ends (Worker.consume deployment) .empty := by
  refine Follows.bind (Follows.attempt (reserve_follows.mono ?_))
  rintro now (failure | _ | jobId) careful
  · exact follows_pure careful
  · exact follows_pure fun full => absurd (careful.mp full) (by simp)
  rw [careful.mpr rfl]
  refine Follows.tryCatch ((process_follows deployment jobId).mono ?_)
  rintro now (failure | value) slack
  · exact follows_pure slack
  · exact slack

/-! ### Enqueue and replay -/

theorem place_follows (job : Job) (now : Int) :
    handDiscipline.Follows Places (JobService.place job now) .full := by
  unfold JobService.place
  split
  · exact follows_last (fun _ => rfl) fun _ => rfl
  · exact follows_last (fun _ => rfl) fun _ => rfl

theorem createJob_follows (input : EnqueueInput) :
    handDiscipline.Follows Ends (JobService.createJob input) .empty := by
  refine follows_call (fun _ => rfl) fun job => ?_
  refine follows_call (fun _ => rfl) fun now => ?_
  refine Follows.bind ((place_follows job now).mono ?_)
  rintro now (failure | _) placed
  · exact placed
  rw [placed]
  exact empty_then ((resolveSlot_within _ _).mono fun _ => Call.inert_of_slots)
    fun _ => follows_pure (by simp [Careful])

/-- Nothing is in hand that could get lost without a failure before. -/
theorem releaseSlot_follows (input : EnqueueInput) (slack : hand ≠ .full) :
    handDiscipline.Follows Ends (JobService.releaseSlot input) hand := by
  unfold JobService.releaseSlot
  split
  · refine follows_last (fun _ => rfl) fun _ => ?_
    exact Hand.after_of_discourages rfl
  · exact follows_pure slack

theorem createOrAbort_follows (input : EnqueueInput) :
    handDiscipline.Follows Ends (JobService.createOrAbort input) .empty := by
  refine Follows.tryCatch ((createJob_follows input).mono ?_)
  rintro now (failure | job) slack
  · refine Follows.bind ((releaseSlot_follows input slack).mono ?_)
    rintro later (again | _) slack
    · exact slack
    · exact follows_throw slack
  · exact slack

theorem enqueue_follows (input : EnqueueInput) :
    handDiscipline.Follows Ends (JobService.enqueue input) .empty := by
  have creates := createOrAbort_follows input
  refine empty_then ((getOwnedBy_within _ _).mono fun _ =>
    Call.inert_of_gates) fun webhook => ?_
  split
  · exact follows_throw (by simp [Careful])
  split
  · exact creates
  refine empty_then ((begin_within _ _).mono fun _ => Call.inert_of_slots) ?_
  rintro (_ | jobId | _)
  · exact creates
  · refine empty_then (@Within.perform Call _ _ _ (.findJob jobId) rfl) ?_
    rintro (_ | existing)
    · exact creates
    · exact follows_pure (by simp [Careful])
  · exact follows_throw (by simp [Careful])

theorem replayLoop_follows (limit : Nat) (replayed : List JobId) :
    handDiscipline.Follows Ends (JobService.replayLoop limit replayed)
      .empty := by
  induction limit generalizing replayed with
  | zero => exact follows_pure (by simp [Careful])
  | succ limit ih =>
      refine follows_call (fun _ => rfl) ?_
      rintro (_ | jobId)
      · exact follows_pure (by simp [Careful, Hand.after, Hand.goOn])
      refine follows_call (fun _ => rfl) ?_
      rintro (_ | job)
      · exact ih replayed
      · exact follows_call (fun _ => rfl) fun _ => ih _

/-- No process ends with a job in hand if nothing has gone wrong. -/
theorem main_follows (deployment : Deployment) (role : Role) :
    handDiscipline.Follows Ends (role.main deployment) .empty := by
  have mapped : ∀ {Value : Type} {program : Async Value}
      (result : Value → Result), handDiscipline.Follows Ends program .empty →
        handDiscipline.Follows Ends (result <$> program) .empty := by
    intro Value program result follows
    rw [Program.map_eq]
    refine Follows.bind (follows.mono ?_)
    rintro now (failure | value) slack
    · exact slack
    · exact follows_pure slack
  cases role with
  | enqueue input => exact mapped _ (enqueue_follows input)
  | replay limit => exact mapped _ (replayLoop_follows limit [])
  | worker => exact mapped _ (consume_follows deployment)

end HandDiscipline

/-! ## The processes -/

variable {deployment : Deployment} {before after : State} {action : Action}

/-- A running process goes on with a hand that it knows. -/
def Process.Perseveres (process : Process) : Prop :=
  ∀ program, process.status = .running program → ∃ hand : Hand,
    hand.Knows process.claim ∧
      handDiscipline.Follows HandDiscipline.Ends program hand

namespace Process

variable {process : Process} {claim : Claim} {program : Async Result}
  {hand : Hand}

theorem perseveres_proceed (knows : hand.Knows claim)
    (follows : handDiscipline.Follows HandDiscipline.Ends program hand) :
    (process.proceed deployment program claim).Perseveres := by
  intro continued running
  rcases proceed_running running with ⟨rfl, same⟩ | ⟨_, rfl, none⟩
  · rw [same]
    exact ⟨hand, knows, follows⟩
  · refine ⟨.empty, fun holds => ?_, HandDiscipline.main_follows _ _⟩
    rw [none] at holds
    exact absurd rfl holds

variable {call : Call} {next : call.Reply → Async Result}
  {rescue : AppError → Async Result} {outcome : Except AppError call.Reply}

theorem Perseveres.resumed (perseveres : process.Perseveres)
    (running : process.status = .running (.call call next rescue))
    (outcome : Except AppError call.Reply) :
    ∃ hand : Hand,
      (hand.after call outcome).Knows (process.claim.after call outcome) ∧
        handDiscipline.Follows HandDiscipline.Ends
          (Program.resume next rescue outcome) (hand.after call outcome) := by
  obtain ⟨hand, knows, follows⟩ := perseveres _ running
  obtain ⟨_, _, completed⟩ := follows hand rfl
  obtain ⟨_, failed, replied⟩ := completed outcome _ rfl
  refine ⟨hand, knows.after, ?_⟩
  cases outcome with
  | error failure => exact failed failure rfl
  | ok reply => exact replied reply rfl

theorem Perseveres.replied (perseveres : process.Perseveres)
    (running : process.status = .running (.call call next rescue)) :
    (process.replied deployment next rescue outcome).Perseveres := by
  obtain ⟨hand, knows, follows⟩ := perseveres.resumed running outcome
  exact perseveres_proceed knows follows

theorem Perseveres.unanswered (perseveres : process.Perseveres)
    (running : process.status = .running (.call call next rescue))
    (onStore : call.onStore = true) (failure : AppError) :
    (process.unanswered deployment (rescue failure) outcome).Perseveres := by
  obtain ⟨hand, knows, follows⟩ := perseveres _ running
  obtain ⟨_, _, completed⟩ := follows hand rfl
  obtain ⟨late, _, _⟩ := completed outcome _ rfl
  exact perseveres_proceed knows.after.lost (late onStore failure)

theorem Perseveres.failed (perseveres : process.Perseveres)
    (running : process.status = .running (.call call next rescue))
    (onStore : call.onStore = true) (failure : AppError) :
    (process.failed deployment (rescue failure)).Perseveres := by
  obtain ⟨hand, knows, follows⟩ := perseveres _ running
  exact perseveres_proceed knows.lost ((follows hand rfl).2.1 onStore failure)

/-- A process keeps its claim when it gets an answer that does not discourage
it. -/
theorem Perseveres.claim_replied (perseveres : process.Perseveres)
    (running : process.status = .running (.call call next rescue))
    (encouraged : call.discourages outcome = false)
    (holds : (process.claim.after call outcome).holds? ≠ none) :
    (process.replied deployment next rescue outcome).claim =
      process.claim.after call outcome := by
  obtain ⟨hand, knows, follows⟩ := perseveres.resumed running outcome
  rw [Hand.after_eq_full encouraged (knows holds)] at follows
  unfold Process.replied
  cases resumed : Program.resume next rescue outcome with
  | call => rfl
  | pure _ | throw _ =>
      rw [resumed] at follows
      exact absurd rfl (follows .full rfl)

end Process

/-- Every process perseveres. -/
def State.Persevering (state : State) : Prop :=
  ∀ pid process, state.processes pid = some process → process.Perseveres

namespace State.Persevering

theorem initial : State.initial.Persevering :=
  fun _ _ found => by cases found

theorem step (persevering : before.Persevering)
    (taken : WebhookDelivery.step deployment before action = some after) :
    after.Persevering := by
  intro pid now foundNow
  have updated : ∀ {processes : Pid → Option Process} {actor process},
      processes = Function.update before.processes actor (some process) →
      processes pid = some now → process.Perseveres → now.Perseveres := by
    rintro _ actor process rfl foundNow own
    by_cases same : pid = actor
    · subst same
      rw [Function.update_self] at foundNow
      cases foundNow
      exact own
    · rw [Function.update_of_ne same] at foundNow
      exact persevering pid now foundNow
  cases steps_of_step taken with
  | start unused =>
      refine updated rfl foundNow (Process.perseveres_proceed ?_
        (HandDiscipline.main_follows _ _))
      exact fun holds => absurd rfl holds
  | performed found running connected resumes =>
      apply updated rfl foundNow
      have own := persevering _ _ found
      cases resumes with
      | replied => exact own.replied running
      | unanswered onStore => exact own.unanswered running onStore _
  | @failed actor failure process call next rescue found running =>
      have onStore := onStore_of_fail taken
        (State.pending?_of_running found running)
      exact updated rfl foundNow
        ((persevering _ _ found).failed running onStore failure)
  | crashed found live =>
      exact updated rfl foundNow fun _ running => by cases running
  | shutdown found =>
      refine updated rfl foundNow fun program running => ?_
      rw [Process.shutdown_status] at running
      rw [Process.shutdown_claim]
      exact persevering _ _ found program running
  | reaped =>
      obtain ⟨process, found, rfl⟩ := Option.map_eq_some_iff.mp foundNow
      intro program running
      obtain ⟨hand, knows, follows⟩ := persevering pid process found program
        running
      exact ⟨hand, knows.reaped _, follows⟩
  | promoted | ticked | registered _ | deleted =>
      exact persevering pid now foundNow

end State.Persevering

end WebhookDelivery
