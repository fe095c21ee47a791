import WebhookDelivery.QueueDiscipline

/-!
# What a process has done before it makes a call

Several guarantees rest on the order in which one program makes its calls: the
row before the id, the id before the slot, the audit record before the attempt
is counted.  A process is seen here with the calls it has completed so far, and
every call is allowed only after those that the program makes before it.
-/

namespace WebhookDelivery

open Concurrency Program Discipline

namespace Event

/-- The slot that a request has tried to reserve. -/
def asked? : Event → Option String
  | ⟨_, .setSlotNx key, .ok _⟩ => some key
  | _ => none

/-- The slot that a request has reserved. -/
def won? : Event → Option String
  | ⟨_, .setSlotNx key, .ok true⟩ => some key
  | _ => none

/-- A slot read as resolved, and its job. -/
def slotRead? : Event → Option (String × JobId)
  | ⟨_, .getSlot key, .ok (some (.job jobId))⟩ => some (key, jobId)
  | _ => none

/-- A slot that has been resolved, and its job. -/
def resolved? : Event → Option (String × JobId)
  | ⟨_, .setSlot key jobId, .ok _⟩ => some (key, jobId)
  | _ => none

def released? : Event → Option String
  | ⟨_, .delSlot key, .ok _⟩ => some key
  | _ => none

def inserted? : Event → Option Job
  | ⟨_, .insertJob _, .ok job⟩ => some job
  | _ => none

/-- A job whose id has been put on `ready` or `delayed`. -/
def placed? : Event → Option JobId
  | ⟨_, .push jobId, .ok _⟩ => some jobId
  | ⟨_, .pushDelayed jobId _, .ok _⟩ => some jobId
  | _ => none

def missed? : Event → Option JobId
  | ⟨_, .findJob jobId, .ok none⟩ => some jobId
  | _ => none

def found? : Event → Option Job
  | ⟨_, .findJob _, .ok (some job)⟩ => some job
  | _ => none

/-- A webhook that has been looked up under an id. -/
def webhook? : Event → Option (WebhookId × Webhook)
  | ⟨_, .findWebhook id, .ok (some webhook)⟩ => some (id, webhook)
  | _ => none

def clock? : Event → Option Int
  | ⟨_, .now, .ok now⟩ => some now
  | _ => none

/-- A job that a worker has taken from `ready`. -/
def popped? : Event → Option JobId
  | ⟨_, .brpoplpush, .ok (some jobId)⟩ => some jobId
  | _ => none

/-- A job that a replay has taken from `dlq`. -/
def drawn? : Event → Option JobId
  | ⟨_, .popDlq, .ok (some jobId)⟩ => some jobId
  | _ => none

/-- The number a job's next delivery attempt has been given. -/
def numbered? : Event → Option (JobId × Nat)
  | ⟨_, .nextAttemptNumber jobId, .ok number⟩ => some (jobId, number)
  | _ => none

/-- A job for which a delivery attempt has been recorded. -/
def recorded? : Event → Option JobId
  | ⟨_, .insertAttempt record, .ok _⟩ => some record.jobId
  | _ => none

/-- A job of whose budget an attempt has been spent. -/
def spent? : Event → Option JobId
  | ⟨_, .updateState update, .ok (some _)⟩ =>
      if update.incrementAttempts then some update.id else none
  | _ => none

end Event

/-- One of the calls has had this result. -/
def did {Value : Type} (own : List Event) (what : Event → Option Value)
    (value : Value) : Prop :=
  ∃ event ∈ own, what event = some value

@[simp]
theorem did_nil {Value : Type} (what : Event → Option Value) (value : Value) :
    ¬did [] what value := by
  simp [did]

@[simp]
theorem did_cons {Value : Type} (event : Event) (own : List Event)
    (what : Event → Option Value) (value : Value) :
    did (event :: own) what value ↔
      what event = some value ∨ did own what value := by
  simp [did]

instance {Value : Type} [DecidableEq Value] (own : List Event)
    (what : Event → Option Value) (value : Value) :
    Decidable (did own what value) :=
  inferInstanceAs (Decidable (∃ event ∈ own, what event = some value))

/-- The attempts of a job recorded and spent. -/
def recordedOf (own : List Event) (jobId : JobId) : Nat :=
  own.countP fun event => decide (event.recorded? = some jobId)

def spentOf (own : List Event) (jobId : JobId) : Nat :=
  own.countP fun event => decide (event.spent? = some jobId)

/-- The name of the slot a request uses, if it carries a key. -/
def slotName (input : EnqueueInput) : Option String :=
  (JobService.requestKey input).map (Idempotency.redisKey input.tenant)

/-- The webhook of a request has been found and belongs to its tenant. -/
def Owned (input : EnqueueInput) (own : List Event) : Prop :=
  ∃ webhook, did own Event.webhook? (input.webhookId, webhook) ∧
    webhook.tenant = input.tenant

/-- A request without a key, one that has reserved its slot, or one that has
found the slot resolved to a job without a row. -/
def Entitled (input : EnqueueInput) (own : List Event) : Prop :=
  ∀ key, slotName input = some key → did own Event.won? key ∨
    ∃ jobId, did own Event.slotRead? (key, jobId) ∧
      did own Event.missed? jobId

namespace Role

/-- What `enqueue` has done when it makes a call; in the `strict` sense it is
over once the slot is resolved. -/
def EnqueueAllows (strict : Prop) (input : EnqueueInput) (own : List Event)
    (call : Call) : Prop :=
  (strict → ∀ slot, ¬did own Event.resolved? slot) ∧
    match call with
    | .now | .findWebhook _ => True
    | .setSlotNx key =>
        slotName input = some key ∧ ∀ key, ¬did own Event.asked? key
    | .getSlot key => slotName input = some key
    | .findJob jobId => ∃ key, slotName input = some key ∧
        did own Event.slotRead? (key, jobId)
    | .insertJob job =>
        job = input.toJobInput ∧ Owned input own ∧ Entitled input own ∧
          (∀ job, ¬did own Event.inserted? job) ∧
          ∀ key, ¬did own Event.released? key
    | .push jobId => ∃ job now, did own Event.inserted? job ∧
        job.id = jobId ∧ did own Event.clock? now ∧ job.runAt ≤ now
    | .pushDelayed jobId runAtMs => ∃ job, did own Event.inserted? job ∧
        job.id = jobId ∧ job.runAt = runAtMs
    | .setSlot key jobId =>
        slotName input = some key ∧ Entitled input own ∧
          (∃ job, did own Event.inserted? job ∧ job.id = jobId) ∧
          did own Event.placed? jobId ∧ ∀ key, ¬did own Event.released? key
    | .delSlot key => slotName input = some key ∧ Entitled input own ∧
        ∀ key, ¬did own Event.released? key
    | _ => False

/-- What a worker has done when it makes a call. -/
def WorkerAllows (own : List Event) : Call → Prop
  | .zaddLease jobId _ | .ack jobId | .retryLater jobId _
  | .deadLetter jobId => did own Event.popped? jobId
  | .fetch request => did own Event.popped? request.jobId
  | .insertAttempt record =>
      did own Event.numbered? (record.jobId, record.attemptNumber)
  | .updateState update => did own Event.popped? update.id ∧
      (update.incrementAttempts →
        spentOf own update.id < recordedOf own update.id)
  | other => other.works

/-- What a replay has done when it makes a call. -/
def ReplayAllows (own : List Event) : Call → Prop
  | .popDlq => True
  | .resetForReplay jobId | .push jobId => did own Event.drawn? jobId
  | _ => False

def Allows (strict : Prop) (own : List Event) (call : Call) : Role → Prop
  | .enqueue input => EnqueueAllows strict input own call
  | .worker => WorkerAllows own call
  | .replay _ => ReplayAllows own call

end Role

/-! ## The discipline -/

/-- A process with the calls it has completed, latest first.  It is excused
when it goes on although its slot is resolved, because it has lost the reply
to that. -/
structure Trace where
  role : Option Role
  own : List Event
  excused : Prop

/-- The order of calls, seen by one process. -/
abbrev traceDiscipline (strict : Prop) :
    Discipline Call Call.Reply AppError where
  View := Trace
  Rely before after := after = before
  rely_refl _ := rfl
  rely_trans := by
    rintro _ _ _ rfl rfl
    rfl
  Allowed view call := view.excused ∨
    ∃ role, view.role = some role ∧ role.Allows strict view.own call
  Fallible _ _ := True
  Effect view call outcome after :=
    after.role = view.role ∧ after.excused = view.excused ∧
      (∃ pid, after.own = ⟨pid, call, outcome⟩ :: view.own) ∧
      call.Answers outcome
  lost view := { view with
    excused := view.excused ∨ strict ∧
      (∃ input, view.role = some (.enqueue input)) ∧
        ∃ slot, did view.own Event.resolved? slot }

namespace TraceDiscipline

variable {strict : Prop} {role : Role} {known : List Event → Prop}
  {view : Trace} {Value Next : Type} {program : Async Value}

/-- A process of the given role, unless it is excused, has done calls with a
property. -/
def Knows (role : Role) (known : List Event → Prop) (view : Trace) : Prop :=
  view.excused ∨ view.role = some role ∧ known view.own

/-- The calls done once a further one is completed. -/
def After (call : Call) (outcome : Except AppError call.Reply)
    (known : List Event → Prop) (own : List Event) : Prop :=
  ∃ pid earlier, own = ⟨pid, call, outcome⟩ :: earlier ∧ known earlier

theorem Knows.mono {wider : List Event → Prop} (knows : Knows role known view)
    (widen : ∀ own, known own → wider own) : Knows role wider view := by
  rcases knows with excused | ⟨same, holds⟩
  · exact .inl excused
  · exact .inr ⟨same, widen _ holds⟩

theorem Knows.lost (knows : Knows role known view) :
    Knows role known ((traceDiscipline strict).lost view) := by
  rcases knows with excused | ⟨same, holds⟩
  · exact .inl (.inl excused)
  · exact .inr ⟨same, holds⟩

theorem Knows.effect {call : Call} {outcome : Except AppError call.Reply}
    {after : Trace} (knows : Knows role known view)
    (effect : (traceDiscipline strict).Effect view call outcome after) :
    Knows role (After call outcome known) after := by
  obtain ⟨sameRole, sameExcuse, ⟨pid, own⟩, _⟩ := effect
  rcases knows with excused | ⟨same, holds⟩
  · exact .inl (sameExcuse ▸ excused)
  · exact .inr ⟨sameRole.trans same, pid, view.own, own, holds⟩

theorem Knows.allowed {call : Call} (knows : Knows role known view)
    (allows : ∀ own, known own → role.Allows strict own call) :
    (traceDiscipline strict).Allowed view call := by
  rcases knows with excused | ⟨same, holds⟩
  · exact .inl excused
  · exact .inr ⟨role, same, allows _ holds⟩

theorem follows_pure {post : Trace → Except AppError Value → Prop}
    {value : Value} (ends : post view (.ok value)) :
    (traceDiscipline strict).Follows post (.pure value : Async Value)
      view := by
  rintro _ rfl
  exact ends

theorem follows_throw {post : Trace → Except AppError Value → Prop}
    {failure : AppError} (ends : post view (.error failure)) :
    (traceDiscipline strict).Follows post (.throw failure : Async Value)
      view := by
  rintro _ rfl
  exact ends

/-- One call of a process whose failures do not matter. -/
theorem follows_call {post : Trace → Except AppError Next → Prop}
    {call : Call} {rest : call.Reply → Async Next}
    (fails : ∀ now failure, post now (.error failure))
    (knows : Knows role known view)
    (allows : ∀ own, known own → role.Allows strict own call)
    (replied : ∀ now reply, call.Answers (.ok reply) →
      Knows role (After call (.ok reply) known) now →
        (traceDiscipline strict).Follows post (rest reply) now) :
    (traceDiscipline strict).Follows post ((await call).bind rest) view := by
  have throws : ∀ now failure,
      (traceDiscipline strict).Follows post (.throw failure) now :=
    fun _ _ _ _ => fails _ _
  rintro _ rfl
  refine ⟨knows.allowed allows, fun _ _ => throws _ _, ?_⟩
  intro outcome after effect
  refine ⟨fun _ _ => throws _ _, fun _ _ => throws _ _, ?_⟩
  rintro reply rfl
  exact replied _ reply effect.2.2.2 (knows.effect effect)

/-- Any end is fine. -/
abbrev Ends (_ : Trace) (_ : Except AppError Value) : Prop := True

theorem ends_throw {failure : AppError} :
    (traceDiscipline strict).Follows Ends (.throw failure : Async Value)
      view :=
  fun _ _ => trivial

theorem ends_pure {value : Value} :
    (traceDiscipline strict).Follows Ends (.pure value : Async Value) view :=
  fun _ _ => trivial

/-- The last call of a process. -/
theorem follows_end {call : Call} (knows : Knows role known view)
    (allows : ∀ own, known own → role.Allows strict own call) :
    (traceDiscipline strict).Follows Ends (await call) view := by
  have whole : (await call).bind Program.pure = await call := rfl
  rw [← whole]
  exact follows_call (fun _ _ => trivial) knows allows
    fun _ _ _ _ => ends_pure

/-- Sequencing after a program that establishes an assertion, when failures
do not matter. -/
theorem follows_bind {post : Trace → Except AppError Next → Prop}
    {rest : Value → Async Next} {assertion : Trace → Prop}
    (fails : ∀ now failure, post now (.error failure))
    (first : (traceDiscipline strict).Follows (fun now outcome =>
      ∀ value, outcome = .ok value → assertion now) program view)
    (second : ∀ value now, assertion now →
      (traceDiscipline strict).Follows post (rest value) now) :
    (traceDiscipline strict).Follows post (program.bind rest) view := by
  refine Follows.bind (first.mono ?_)
  rintro now (failure | value) holds
  · exact fails _ _
  · exact second value now (holds value rfl)

/-- Sequencing after a program that keeps an assertion. -/
theorem follows_then {rest : Value → Async Next}
    {assertion : Trace → Prop}
    (first : (traceDiscipline strict).Follows (fun now _ => assertion now)
      program view)
    (second : ∀ value now, assertion now →
      (traceDiscipline strict).Follows Ends (rest value) now) :
    (traceDiscipline strict).Follows Ends (program.bind rest) view :=
  follows_bind (fun _ _ => trivial)
    (first.mono fun _ _ holds _ _ => holds) second

end TraceDiscipline

end WebhookDelivery
