import WebhookDelivery.Processes
import WebhookDelivery.Footprints

/-!
# Every process acts on its own claim only

The queue scripts trust their callers: none of them checks who holds a job.
This file states which calls a claim entitles a process to make, and shows
that `enqueue`, `replay` and the consume loop never make any other, whatever
fails and whatever the other processes do.
-/

namespace WebhookDelivery

open Concurrency Program Discipline

/-- The job whose claim a script ends. -/
def Call.releases? : Call → Option JobId
  | .ack jobId | .retryLater jobId _ | .deadLetter jobId => some jobId
  | _ => none

/-- The calls that leave the queue structures alone. -/
def Call.spares : Call → Bool
  | .updateState _ => true
  | other => other.inert

namespace Claim

/-- The calls a claim entitles its process to make. -/
def Permits (claim : Claim) : Call → Prop
  | .brpoplpush | .popDlq | .insertJob _ => claim = .none
  | .zaddLease jobId _ => claim = .popped jobId
  | .ack jobId | .retryLater jobId _ | .deadLetter jobId =>
      claim = .reserved jobId ∨ claim = .superseded jobId
  | .updateState update =>
      claim = .reserved update.id ∨ claim = .superseded update.id
  | .push jobId => claim = .inserted jobId ∨ claim = .replaying jobId
  | .pushDelayed jobId _ => claim = .inserted jobId
  | .resetForReplay jobId => claim = .replaying jobId
  | .now => True
  | _ => claim.awaitsLease = false

/-- What the reaper may do to the claim of a process between two calls. -/
def Overruled (before after : Claim) : Prop :=
  after = before ∨
    ∃ jobId, before = .reserved jobId ∧ after = .superseded jobId

/-- The process works on a job it has reserved, perhaps too slowly. -/
def Works (jobId : JobId) (claim : Claim) : Prop :=
  claim = .reserved jobId ∨ claim = .superseded jobId

theorem overruled_reaped (claim : Claim) (jobIds : List JobId) :
    claim.Overruled (claim.reaped jobIds) := by
  unfold reaped
  split
  next jobId =>
    split
    · exact .inr ⟨jobId, rfl, rfl⟩
    · exact .inl rfl
  · exact .inl rfl

theorem permits_of_inert {claim : Claim} {call : Call}
    (settled : claim.awaitsLease = false) (inert : call.inert) :
    claim.Permits call := by
  cases call <;> first | exact settled | trivial

theorem after_of_spares (claim : Claim) {call : Call}
    (spares : call.spares) (outcome : Except AppError call.Reply) :
    claim.after call outcome = claim := by
  cases call <;> first | rfl | cases spares

theorem lost_of_settled {claim : Claim} (settled : claim.awaitsLease = false) :
    claim.lost = claim := by
  cases claim <;> first | rfl | cases settled

theorem lost_settled (claim : Claim) : claim.lost.awaitsLease = false := by
  cases claim <;> rfl

theorem after_error (claim : Claim) (call : Call) (failure : AppError) :
    claim.after call (.error failure) = claim := by
  cases call <;> rfl

theorem lost_cases (claim : Claim) :
    claim.lost = claim ∨ claim.lost = .none := by
  cases claim <;> first | exact .inl rfl | exact .inr rfl

theorem Works.job? {claim : Claim} {jobId : JobId}
    (works : claim.Works jobId) : claim.job? = some jobId := by
  rcases works with rfl | rfl <;> rfl

theorem works_of_releases {claim : Claim} {call : Call} {jobId : JobId}
    (permits : claim.Permits call) (releases : call.releases? = some jobId) :
    claim.Works jobId := by
  cases call <;> cases releases <;> exact permits

end Claim

/-- What is known of an outcome: the two calls between the commands of
`reserve` and the end of a claim do not raise, nor do the calls of `replay`,
and a job is found under its own id. -/
def Call.Answers : (call : Call) → Except AppError call.Reply → Prop
  | .now, .error _ => False
  | .zaddLease _ _, .error _ => False
  | .popDlq, .error _ => False
  | .resetForReplay _, .error _ => False
  | .push _, .error _ => False
  | .findJob id, .ok (some job) => job.id = id
  | _, _ => True

theorem exec_answers (deployment : Deployment) (choice : Choice)
    (call : Call) (store : Store) :
    call.Answers (exec deployment choice call store).1 := by
  cases call with
  | findJob id =>
      simp only [exec, Postgres.findJob]
      cases found : store.db.jobs id with
      | none => trivial
      | some row => exact store.db.keyed found
  | _ => trivial

/-- The claim discipline: a process sees its own claim, which only the reaper
changes between its calls. -/
abbrev queueDiscipline : Discipline Call Call.Reply AppError where
  View := Claim
  Rely := Claim.Overruled
  rely_refl _ := .inl rfl
  rely_trans := by
    rintro _ _ _ (rfl | ⟨jobId, rfl, rfl⟩) (rfl | ⟨other, same, rfl⟩)
    · exact .inl rfl
    · exact .inr ⟨other, same, rfl⟩
    · exact .inr ⟨jobId, rfl, rfl⟩
    · cases same
  Allowed := Claim.Permits
  Fallible _ _ := True
  Effect claim call outcome after :=
    after = claim.after call outcome ∧ call.Answers outcome
  lost := Claim.lost

namespace QueueDiscipline

/-- An assertion on claims that the reaper cannot invalidate, and that does
not hold inside `reserve`. -/
structure Settled (assertion : Claim → Prop) : Prop where
  settled : ∀ {claim}, assertion claim → claim.awaitsLease = false
  stable : ∀ {claim now}, assertion claim → claim.Overruled now →
    assertion now

theorem settled_works (jobId : JobId) : Settled (Claim.Works jobId) where
  settled := by rintro _ (rfl | rfl) <;> rfl
  stable := by
    rintro _ _ (rfl | rfl) (rfl | ⟨other, same, rfl⟩)
    · exact .inl rfl
    · cases same
      exact .inr rfl
    · exact .inr rfl
    · cases same

/-- Claims the reaper has no say in. -/
theorem settled_eq {claim : Claim} (settled : claim.awaitsLease = false)
    (unleased : ∀ jobId, claim ≠ .reserved jobId) :
    Settled (· = claim) where
  settled := by rintro _ rfl; exact settled
  stable := by
    rintro _ _ rfl (rfl | ⟨jobId, same, rfl⟩)
    · rfl
    · exact absurd same (unleased jobId)

theorem settled_none : Settled (· = .none) :=
  settled_eq rfl (by simp)

theorem settled_any : Settled (fun claim => claim.awaitsLease = false) where
  settled := id
  stable := by
    rintro _ _ settled (rfl | ⟨jobId, rfl, rfl⟩)
    · exact settled
    · rfl

variable {Value Next : Type} {assertion : Claim → Prop} {claim : Claim}
  {program : Async Value}

/-- A program that spares the queue keeps a settled assertion. -/
theorem follows_spares (settled : Settled assertion)
    (within : program.Within fun call => call.spares ∧
      ∀ {claim}, assertion claim → claim.Permits call)
    (holds : assertion claim) :
    queueDiscipline.Follows (fun now _ => assertion now) program claim := by
  refine Follows.of_within assertion within settled.stable
    (fun holds permitted => permitted.2 holds) ?_ ?_
    (fun _ _ holds => holds) holds
  · intro view holds
    show assertion view.lost
    rw [Claim.lost_of_settled (settled.settled holds)]
    exact holds
  · rintro view call outcome after holds permitted ⟨rfl, _⟩
    rw [Claim.after_of_spares view permitted.1]
    exact holds

theorem follows_inert (settled : Settled assertion)
    (within : program.Within fun call => call.inert)
    (holds : assertion claim) :
    queueDiscipline.Follows (fun now _ => assertion now) program claim :=
  follows_spares settled
    (within.mono fun call inert =>
      ⟨by cases call <;> first | rfl | exact inert,
        fun holds =>
          Claim.permits_of_inert (settled.settled holds) inert⟩)
    holds

/-- Outside `reserve`, whatever the outcome. -/
abbrev Settles (claim : Claim) (_ : Except AppError Value) : Prop :=
  claim.awaitsLease = false

theorem settles_throw {failure : AppError}
    (settled : claim.awaitsLease = false) :
    queueDiscipline.Follows Settles (.throw failure : Async Value) claim :=
  fun _ overruled => settled_any.stable settled overruled

theorem settles_pure {value : Value} (settled : claim.awaitsLease = false) :
    queueDiscipline.Follows Settles (.pure value : Async Value) claim :=
  fun _ overruled => settled_any.stable settled overruled

/-- Sequencing after a program that leaves a settled assertion alone. -/
theorem follows_then {rest : Value → Async Next}
    (first : queueDiscipline.Follows (fun now _ => assertion now) program
      claim)
    (settled : Settled assertion)
    (second : ∀ value now, assertion now →
      queueDiscipline.Follows Settles (rest value) now) :
    queueDiscipline.Follows Settles (program.bind rest) claim := by
  refine Follows.bind (first.mono ?_)
  rintro now (failure | value) holds
  · exact settled.settled holds
  · exact second value now holds

/-- One call under a claim the reaper has no say in, whose failure is passed
on.  Inside `reserve` the call must not raise. -/
theorem follows_await {post : Claim → Except AppError Next → Prop}
    {call : Call} {rest : call.Reply → Async Next}
    (unleased : ∀ jobId, claim ≠ .reserved jobId)
    (permits : claim.Permits call)
    (raises : claim.awaitsLease = false ∨
      ∀ failure, ¬call.Answers (.error failure))
    (throws : ∀ failure now, now.awaitsLease = false →
      queueDiscipline.Follows post (.throw failure) now)
    (replied : ∀ reply, call.Answers (.ok reply) →
      queueDiscipline.Follows post (rest reply)
        (claim.after call (.ok reply))) :
    queueDiscipline.Follows post ((await call).bind rest) claim := by
  rintro _ (rfl | ⟨jobId, same, _⟩)
  · refine ⟨permits, fun _ failure =>
      throws failure _ (Claim.lost_settled _), ?_⟩
    rintro outcome after ⟨rfl, answers⟩
    refine ⟨fun _ failure => throws failure _ (Claim.lost_settled _),
      ?_, ?_⟩
    · rintro failure rfl
      rw [Claim.after_error]
      exact throws failure _
        (raises.resolve_right fun never => never failure answers)
    · rintro reply rfl
      exact replied reply answers
  · exact absurd same (unleased jobId)

/-! ## The worker -/

theorem reserve_follows :
    queueDiscipline.Follows
      (fun claim outcome => Settles claim outcome ∧
        ∀ jobId, outcome = .ok (some jobId) → Claim.Works jobId claim)
      Queue.reserve .none := by
  have throws : ∀ failure (now : Claim), now.awaitsLease = false →
      queueDiscipline.Follows
        (fun claim outcome => Settles claim outcome ∧
          ∀ jobId, outcome = .ok (some jobId) → Claim.Works jobId claim)
        (.throw failure) now :=
    fun _ _ settled _ overruled =>
      ⟨settled_any.stable settled overruled, fun _ same => nomatch same⟩
  refine follows_await (by simp) rfl (.inl rfl) throws ?_
  rintro (_ | jobId) _
  · exact fun _ overruled =>
      ⟨settled_any.stable rfl overruled, fun _ same => nomatch same⟩
  refine follows_await (by simp [Claim.after]) trivial
    (.inr fun _ => id) throws ?_
  intro now _
  refine follows_await (by simp [Claim.after]) rfl (.inr fun _ => id)
    throws ?_
  intro _ _ now overruled
  have works := (settled_works jobId).stable (.inl rfl) overruled
  refine ⟨(settled_works jobId).settled works, ?_⟩
  intro _ same
  cases same
  exact works

theorem release_follows {jobId : JobId} {call : Call}
    (releases : call.releases? = some jobId)
    (works : Claim.Works jobId claim) :
    queueDiscipline.Follows Settles (await call) claim := by
  intro now overruled
  have worksNow := (settled_works jobId).stable works overruled
  have settled := (settled_works jobId).settled worksNow
  refine ⟨?_, fun _ _ => settles_throw (Claim.lost_settled _), ?_⟩
  · cases call <;> cases releases <;> exact worksNow
  rintro outcome after ⟨rfl, _⟩
  refine ⟨fun _ _ => settles_throw (Claim.lost_settled _), ?_, ?_⟩
  · rintro failure rfl
    rw [Claim.after_error]
    exact settles_throw settled
  · rintro reply rfl later overruled
    refine settled_any.stable ?_ overruled
    cases call <;> cases releases <;> rfl

theorem gates_follow {jobId : JobId} (works : Claim.Works jobId claim)
    (within : program.Within fun call => call.gates) :
    queueDiscipline.Follows (fun now _ => Claim.Works jobId now) program
      claim :=
  follows_inert (settled_works jobId)
    (within.mono fun _ => Call.inert_of_gates) works

theorem now_follows {jobId : JobId} (works : Claim.Works jobId claim) :
    queueDiscipline.Follows (fun now _ => Claim.Works jobId now)
      (await .now) claim :=
  gates_follow works (Within.perform rfl)

theorem update_follows {jobId : JobId} {update : StateUpdate}
    (own : update.id = jobId) (works : Claim.Works jobId claim) :
    queueDiscipline.Follows (fun now _ => Claim.Works jobId now)
      (JobRepository.updateState update) claim := by
  subst own
  exact follows_spares (settled_works _)
    (Within.perform ⟨rfl, fun works => works⟩) works

theorem deferUntil_follows {jobId : JobId} {job : Job} {runAtMs : Int}
    (own : job.id = jobId) (works : Claim.Works jobId claim) :
    queueDiscipline.Follows Settles
      (JobService.deferUntil jobId job runAtMs) claim :=
  follows_then (update_follows own works) (settled_works jobId)
    fun _ _ works => release_follows rfl works

theorem settle_follows {deployment : Deployment} {jobId : JobId} {job : Job}
    {result : DeliveryService.DeliveryResult}
    (own : job.id = jobId) (works : Claim.Works jobId claim) :
    queueDiscipline.Follows Settles
      (JobService.settle deployment jobId job result) claim := by
  have settled := settled_works jobId
  unfold JobService.settle
  split
  · refine follows_then (gates_follow works (recordSuccess_within _))
      settled ?_
    intro _ _ works
    apply follows_then (update_follows own works) settled
    exact fun _ _ works => release_follows rfl works
  · refine follows_then (gates_follow works (recordFailure_within _ _))
      settled ?_
    intro _ _ works
    dsimp only
    split
    · apply follows_then (update_follows own works) settled
      exact fun _ _ works => release_follows rfl works
    · refine follows_then (gates_follow works (backoffMs_within _))
        settled ?_
      intro delayMs _ works
      apply follows_then (now_follows works) settled
      intro now _ works
      apply follows_then (update_follows own works) settled
      exact fun _ _ works => release_follows rfl works

theorem deliverJob_follows {deployment : Deployment} {jobId : JobId}
    {job : Job} (own : job.id = jobId) (works : Claim.Works jobId claim) :
    queueDiscipline.Follows Settles
      (JobService.deliverJob deployment jobId job) claim := by
  have settled := settled_works jobId
  apply follows_then (update_follows own works) settled
  intro _ _ works
  apply follows_then (gates_follow works (getById_within _)) settled
  intro webhook _ works
  apply follows_then (gates_follow works (getSecret_within _)) settled
  intro secret _ works
  refine follows_then (follows_inert settled
    ((deliver_within _ _ _ _).mono fun _ => Call.inert_of_delivers) works)
    settled ?_
  exact fun _ _ works => settle_follows own works

theorem process_follows {deployment : Deployment} {jobId : JobId}
    (works : Claim.Works jobId claim) :
    queueDiscipline.Follows Settles
      (JobService.process deployment jobId) claim := by
  have settled := settled_works jobId
  intro now overruled
  have worksNow := settled.stable works overruled
  have settledNow := settled.settled worksNow
  refine ⟨settledNow, fun _ _ => settles_throw (Claim.lost_settled _), ?_⟩
  rintro outcome _ ⟨rfl, answers⟩
  refine ⟨fun _ _ => settles_throw (Claim.lost_settled _), ?_, ?_⟩
  · rintro failure rfl
    exact settles_throw settledNow
  rintro (_ | job) rfl
  · exact release_follows rfl worksNow
  have own : job.id = jobId := answers
  show queueDiscipline.Follows _ (ite _ _ _) _
  split
  · exact release_follows rfl worksNow
  apply follows_then (gates_follow worksNow (check_within _ _)) settled
  intro circuitState _ works
  split
  · apply follows_then (now_follows works) settled
    exact fun _ _ works => deferUntil_follows own works
  apply follows_then (gates_follow works (take_within _ _ _ _)) settled
  intro rate _ works
  split
  · apply follows_then (now_follows works) settled
    exact fun _ _ works => deferUntil_follows own works
  · exact deliverJob_follows own works

theorem consume_follows (deployment : Deployment) :
    queueDiscipline.Follows Settles (Worker.consume deployment) .none := by
  refine Follows.bind (Follows.attempt (reserve_follows.mono ?_))
  rintro claim (failure | _ | jobId) ⟨settled, works⟩
  · exact settles_pure settled
  · exact settles_pure settled
  refine Follows.tryCatch ((process_follows (works jobId rfl)).mono ?_)
  rintro now (failure | value) settled
  · exact settles_pure settled
  · exact settled

/-! ## Enqueue and replay -/

/-- The last call of a program, under a claim the reaper has no say in. -/
theorem follows_last {call : Call} (unleased : ∀ jobId, claim ≠ .reserved jobId)
    (permits : claim.Permits call) (settled : claim.awaitsLease = false)
    (ends : ∀ reply, (claim.after call (.ok reply)).awaitsLease = false) :
    queueDiscipline.Follows Settles (await call) claim := by
  rintro _ (rfl | ⟨jobId, same, _⟩)
  · refine ⟨permits, fun _ _ => settles_throw (Claim.lost_settled _), ?_⟩
    rintro outcome after ⟨rfl, _⟩
    refine ⟨fun _ _ => settles_throw (Claim.lost_settled _), ?_, ?_⟩
    · rintro failure rfl
      rw [Claim.after_error]
      exact settles_throw settled
    · rintro reply rfl
      exact fun _ overruled => settled_any.stable (ends reply) overruled
  · exact absurd same (unleased jobId)

theorem place_follows {job : Job} (now : Int) :
    queueDiscipline.Follows Settles (JobService.place job now)
      (.inserted job.id) := by
  unfold JobService.place
  split
  · exact follows_last (by simp) rfl rfl fun _ => rfl
  · exact follows_last (by simp) (.inl rfl) rfl fun _ => rfl

theorem createJob_follows (input : EnqueueInput) :
    queueDiscipline.Follows Settles (JobService.createJob input) .none := by
  refine follows_await (by simp) rfl (.inl rfl)
    (fun _ _ => settles_throw) ?_
  intro job _
  refine follows_await (by simp [Claim.after]) trivial (.inl rfl)
    (fun _ _ => settles_throw) ?_
  intro now _
  apply follows_then (place_follows now) settled_any
  intro _ claim settled
  refine follows_then (follows_inert settled_any
    ((resolveSlot_within _ _).mono fun _ => Call.inert_of_slots) settled) settled_any ?_
  exact fun _ _ => settles_pure

theorem createOrAbort_follows (input : EnqueueInput) :
    queueDiscipline.Follows Settles (JobService.createOrAbort input)
      .none := by
  refine Follows.tryCatch ((createJob_follows input).mono ?_)
  rintro claim (failure | job) settled
  · refine follows_then (follows_inert settled_any
      ((releaseSlot_within _).mono fun _ => Call.inert_of_slots) settled) settled_any ?_
    exact fun _ _ => settles_throw
  · exact settled

theorem enqueue_follows (input : EnqueueInput) :
    queueDiscipline.Follows Settles (JobService.enqueue input) .none := by
  refine follows_then (follows_inert settled_none
    ((getOwnedBy_within _ _).mono fun _ => Call.inert_of_gates) rfl)
    settled_none ?_
  rintro webhook _ rfl
  split
  · exact settles_throw rfl
  split
  · exact createOrAbort_follows input
  refine follows_then (follows_inert settled_none
    ((begin_within _ _).mono fun _ => Call.inert_of_slots) rfl)
    settled_none ?_
  rintro (_ | jobId | _) _ rfl
  · exact createOrAbort_follows input
  · refine follows_then (follows_inert settled_none
      (@Within.perform Call _ _ _ (.findJob jobId) rfl) rfl) settled_none ?_
    rintro (_ | existing) _ rfl
    · exact createOrAbort_follows input
    · exact settles_pure rfl
  · exact settles_throw rfl

theorem replayLoop_follows (limit : Nat) (replayed : List JobId) :
    queueDiscipline.Follows Settles (JobService.replayLoop limit replayed)
      .none := by
  induction limit generalizing replayed with
  | zero => exact settles_pure rfl
  | succ limit ih =>
      refine follows_await (by simp) rfl (.inl rfl)
        (fun _ _ => settles_throw) ?_
      rintro (_ | jobId) _
      · exact settles_pure rfl
      refine follows_await (by simp [Claim.after]) rfl (.inl rfl)
        (fun _ _ => settles_throw) ?_
      rintro (_ | job) _
      · exact ih replayed
      refine follows_await (by simp [Claim.after]) (.inr rfl) (.inl rfl)
        (fun _ _ => settles_throw) ?_
      exact fun _ _ => ih _

/-- Every process keeps to the claim discipline from its start on, and does
not end inside `reserve`. -/
theorem main_follows (deployment : Deployment) (role : Role) :
    queueDiscipline.Follows Settles (role.main deployment) .none := by
  cases role with
  | enqueue input =>
      apply follows_then (enqueue_follows input) settled_any
      exact fun _ _ => settles_pure
  | replay limit =>
      apply follows_then (replayLoop_follows limit []) settled_any
      exact fun _ _ => settles_pure
  | worker =>
      apply follows_then (consume_follows deployment) settled_any
      exact fun _ _ => settles_pure

end QueueDiscipline

end WebhookDelivery
