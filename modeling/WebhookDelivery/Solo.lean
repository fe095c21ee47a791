import WebhookDelivery.Library.Execution
import WebhookDelivery.QueueDiscipline

/-!
# One call of `process`

A worker that is the only owner of a job finds the row of the job, its webhook
and its audit trail as it has left them, whatever the other processes do.  What
a call of `process` can do is said once here: it is kept from delivering by one
of the two gates, or it delivers and settles the job, or the record of the
delivery or the count of the attempt is refused.
-/

namespace WebhookDelivery

open Concurrency

/-- What the stores hold about one job. -/
structure JobView where
  row : Option JobRow
  webhook : Option WebhookRow
  attempts : List AttemptRecord

def Store.view (jobId : JobId) (store : Store) : JobView where
  row := store.db.jobs jobId
  webhook := (store.db.jobs jobId).bind fun row =>
    store.db.webhooks row.webhookId
  attempts := store.db.attemptsOf jobId

/-- A program run by the process `pid` on the stores. -/
abbrev Async.run {Value : Type} (program : Async Value)
    (deployment : Deployment) (pid : Pid)
    (around : Surroundings Store Choice AppError) (store : Store) :
    Execution Event AppError Value Store :=
  program.execute (exec deployment) (Event.mk pid) around 0 store []

/-! ## The endpoint -/

/-- How an endpoint treats a request that reaches it: a status, or the error of
`fetch`; then the body, or the error of reading it. -/
structure Endpoint where
  response : Except AppError Nat
  text : Except AppError String
  deriving DecidableEq

/-- The environment lets the endpoint answer. -/
def Endpoint.Behind (endpoint : Endpoint) (choice : Choice) : Prop :=
  choice.response = endpoint.response ∧ choice.text = endpoint.text

/-- What `deliver` makes of an answer: status code, response body, error. -/
structure DeliveryReply where
  statusCode : Option Nat
  responseBody : Option String
  error : Option String
  deriving DecidableEq

namespace DeliveryReply

/-- Postgres takes the texts of the reply. -/
def storable (reply : DeliveryReply) : Bool :=
  reply.responseBody.all storableText && reply.error.all storableText

def success (reply : DeliveryReply) : Bool :=
  reply.statusCode.any DeliveryService.isOk

end DeliveryReply

/-- What a worker meets instead of the endpoint when `fetch` refuses the
request. -/
def Endpoint.behindRefusal (endpoint : Endpoint) : Option AppError → Endpoint
  | some failure => { endpoint with response := .error failure }
  | none => endpoint

def Endpoint.reply (endpoint : Endpoint) : DeliveryReply :=
  match endpoint.response with
  | .error failure => ⟨none, none, some failure.message⟩
  | .ok status =>
      match endpoint.text with
      | .error failure => ⟨some status, none, some failure.message⟩
      | .ok text =>
          ⟨some status, some (String.ofList (DeliveryService.sliceUnits
              DeliveryService.maxBodyChars text.toList)),
            if DeliveryService.isOk status then none
            else some s!"HTTP {status}"⟩

/-! ## What a process has done -/

namespace Event

/-- A gate that has kept the process from delivering. -/
def bars : Event → Bool
  | ⟨_, .checkCircuit _ _ _, .ok state⟩ => decide (state = .opened)
  | ⟨_, .take _ _ _ _ _, .ok rate⟩ => !rate.allowed
  | ⟨_, .take _ _ _ _ _, .error _⟩ => true
  | _ => false

end Event

/-- Both gates have let the process by, as far as it has asked them. -/
def GatesOpen (calls : List Event) : Prop :=
  ∀ event ∈ calls, event.bars = false

instance (calls : List Event) : Decidable (GatesOpen calls) :=
  inferInstanceAs (Decidable (∀ event ∈ calls, event.bars = false))

/-- How often a process has ended a claim on the job. -/
def releasesOf (jobId : JobId) (calls : List Event) : Nat :=
  calls.countP fun event => decide (event.call.releases? = some jobId)

/-- What a call of `process` on an unfinished job has done. -/
inductive Processed (jobId : JobId) (row : JobRow) (reply : DeliveryReply)
    (before after : JobView) (calls : List Event) :
    Except AppError Unit → Prop
  | barred {outcome : Except AppError Unit} (barred : ¬GatesOpen calls) :
      Processed jobId row reply before after calls outcome
  | unrecorded {failure : AppError} (refused : reply.storable = false) :
      Processed jobId row reply before after calls (.error failure)
  | overspent {outcome : Except AppError Unit}
      (spent : row.attempts = row.maxAttempts) :
      Processed jobId row reply before after calls outcome
  | settled {record : AttemptRecord} {settledRow : JobRow}
      (storable : reply.storable)
      (recorded : after.attempts = before.attempts ++ [record])
      (stored : after.row = some settledRow)
      (counted : settledRow.attempts = row.attempts + 1)
      (released : releasesOf jobId calls = 1) :
      Processed jobId row reply before after calls (.ok ())

/-! ## Rules for the calls of `process` -/

theorem Store.view_congr {store other : Store} (same : store.db = other.db)
    (jobId : JobId) : store.view jobId = other.view jobId := by
  simp only [Store.view, same]

/-- A process that is the only owner of the job. -/
abbrev soloDiscipline (deployment : Deployment) (pid : Pid) (jobId : JobId)
    (endpoint : Endpoint) : Discipline Call Call.Reply AppError :=
  sequential (exec deployment) (Event.mk pid)
    (fun store view => store.view jobId = view) endpoint.Behind

namespace Solo

variable {deployment : Deployment} {pid : Pid} {jobId : JobId}
  {endpoint : Endpoint} {view : JobView} {calls : List Event} {Value : Type}
  {post : JobView × List Event → Except AppError Value → Prop}

/-- A call that leaves the database alone. -/
theorem follows_spared {call : Call} {rest : call.Reply → Async Value}
    (spares : ∀ choice store,
      (exec deployment choice call store).2.db = store.db)
    (answers : ∀ choice store, endpoint.Behind choice →
      store.view jobId = view →
        match (exec deployment choice call store).1 with
        | .ok reply => (soloDiscipline deployment pid jobId endpoint).Follows
            post (rest reply) (view, ⟨pid, call, .ok reply⟩ :: calls)
        | .error failure =>
            post (view, ⟨pid, call, .error failure⟩ :: calls)
              (.error failure)) :
    (soloDiscipline deployment pid jobId endpoint).Follows post
      ((await call).bind rest) (view, calls) := by
  refine Sequential.follows_call (fun _ _ _ _ => ⟨_, rfl⟩) ?_
  intro choice store after behind same result now sees
  have kept : after = view :=
    sees.symm.trans ((Store.view_congr (spares choice store) jobId).trans same)
  have following := answers choice store behind same
  subst kept
  dsimp only [result, now]
  split at following <;> rename_i outcome
  · simp only [outcome]
    exact following
  · simp only [outcome]
    exact following

/-- A call that leaves the database alone and does not raise. -/
theorem follows_read {call : Call} {rest : call.Reply → Async Value}
    (known : call.Reply → Prop)
    (spares : ∀ choice store,
      (exec deployment choice call store).2.db = store.db)
    (answers : ∀ choice store, store.view jobId = view →
      ∃ reply, (exec deployment choice call store).1 = .ok reply ∧
        known reply)
    (following : ∀ reply, known reply →
      (soloDiscipline deployment pid jobId endpoint).Follows post
        (rest reply) (view, ⟨pid, call, .ok reply⟩ :: calls)) :
    (soloDiscipline deployment pid jobId endpoint).Follows post
      ((await call).bind rest) (view, calls) := by
  refine follows_spared spares fun choice store _ same => ?_
  obtain ⟨reply, outcome, holds⟩ := answers choice store same
  simp only [outcome]
  exact following reply holds

/-- A call whose failure is caught. -/
theorem follows_attempt {call : Call}
    {rest : Except AppError call.Reply → Async Value}
    (spares : ∀ choice store,
      (exec deployment choice call store).2.db = store.db)
    (answers : ∀ choice store, endpoint.Behind choice →
      (soloDiscipline deployment pid jobId endpoint).Follows post
        (rest (exec deployment choice call store).1)
        (view, ⟨pid, call, (exec deployment choice call store).1⟩ ::
          calls)) :
    (soloDiscipline deployment pid jobId endpoint).Follows post
      ((Program.attempt (await call)).bind rest) (view, calls) := by
  rintro _ rfl
  refine ⟨fun _ _ _ _ => ⟨_, rfl⟩, False.elim, ?_⟩
  rintro _ ⟨after, _⟩ ⟨choice, store, behind, same, rfl, sees, rfl⟩
  have kept : after = view :=
    sees.symm.trans ((Store.view_congr (spares choice store) jobId).trans same)
  have following := answers choice store behind
  subst kept
  refine ⟨False.elim, ?_, ?_⟩
  · intro failure outcome
    rw [outcome] at following ⊢
    exact following
  · intro reply outcome
    rw [outcome] at following ⊢
    exact following

/-- The process reads its clock. -/
theorem follows_now {rest : Int → Async Value}
    (following : ∀ time,
      (soloDiscipline deployment pid jobId endpoint).Follows post
        (rest time) (view, ⟨pid, .now, .ok time⟩ :: calls)) :
    (soloDiscipline deployment pid jobId endpoint).Follows post
      ((await .now).bind rest) (view, calls) :=
  follows_read (fun _ => True) (fun _ _ => rfl)
    (fun choice _ _ => ⟨choice.now, rfl, trivial⟩)
    fun time _ => following time

/-- The process writes the row of the job. -/
theorem follows_update {update : StateUpdate} {row : JobRow}
    {rest : Option Job → Async Value} (own : update.id = jobId)
    (found : view.row = some row) (storable : update.lastError.all storableText)
    (written : ∀ now, (update.apply now row).attempts ≤ row.maxAttempts →
      (soloDiscipline deployment pid jobId endpoint).Follows post
        (rest (some (update.apply now row).toJob))
        ({ view with row := some (update.apply now row) },
          ⟨pid, .updateState update,
            .ok (some (update.apply now row).toJob)⟩ :: calls))
    (refused : row.maxAttempts <
        row.attempts + (if update.incrementAttempts then 1 else 0) →
      ∀ failure, post
        (view, ⟨pid, .updateState update, .error failure⟩ :: calls)
          (.error failure)) :
    (soloDiscipline deployment pid jobId endpoint).Follows post
      ((JobRepository.updateState update).bind rest) (view, calls) := by
  refine Sequential.follows_call (fun _ _ _ _ => ⟨_, rfl⟩) ?_
  rintro choice store _ _ rfl result now rfl
  have stored : store.db.jobs update.id = some row := own ▸ found
  dsimp only [result, now]
  by_cases within : (update.apply choice.now row).attempts ≤ row.maxAttempts
  · have outcome : store.db.updateState choice.now update =
        (.ok (some (update.apply choice.now row).toJob),
          store.db.setJob (update.apply choice.now row)) := by
      have limit : (update.apply choice.now row).attempts ≤
          (update.apply choice.now row).maxAttempts := within
      simp [Postgres.updateState, stored, storable, limit]
    have id : (update.apply choice.now row).id = jobId :=
      (store.db.keyed stored).trans own
    have view : (store.withDb (store.db.setJob
        (update.apply choice.now row))).view jobId =
          { store.view jobId with
            row := some (update.apply choice.now row) } := by
      simp only [Store.view, Store.withDb, Postgres.setJob_jobs, id, if_true,
        Option.bind_some]
      have earlier : store.db.jobs jobId = some row := found
      simp only [earlier, Option.bind_some]
      rfl
    simp only [exec, outcome]
    rw [view]
    exact written choice.now within
  · have outcome : ∃ failure, store.db.updateState choice.now update =
        (.error failure, store.db) := by
      have limit : ¬(update.apply choice.now row).attempts ≤
          (update.apply choice.now row).maxAttempts := within
      refine ⟨.other "new row violates check constraint", ?_⟩
      simp [Postgres.updateState, stored, storable, limit]
    obtain ⟨failure, outcome⟩ := outcome
    simp only [exec, outcome]
    exact refused (by simpa [StateUpdate.apply] using within) failure

private theorem le_foldl_max (numbers : List Nat) (start : Nat) :
    start ≤ numbers.foldl max start ∧
      ∀ number ∈ numbers, number ≤ numbers.foldl max start := by
  induction numbers generalizing start with
  | nil => simp
  | cons first numbers ih =>
      obtain ⟨above, others⟩ := ih (max start first)
      rw [List.foldl_cons, List.forall_mem_cons]
      exact ⟨by omega, by omega, others⟩

/-- The next number has not been given yet. -/
theorem nextAttemptNumber_fresh (db : Postgres) (jobId : JobId) :
    db.nextAttemptNumber jobId ∉
      (db.attemptsOf jobId).map AttemptRecord.attemptNumber := by
  intro member
  have bound := (le_foldl_max _ 0).2 _ member
  unfold Postgres.nextAttemptNumber at bound
  omega

/-- The process records an attempt of the job under a new number. -/
theorem follows_insertAttempt {record : AttemptRecord} {row : JobRow}
    {rest : Unit → Async Value} (own : record.jobId = jobId)
    (found : view.row = some row)
    (fresh : record.attemptNumber ∉
      view.attempts.map AttemptRecord.attemptNumber)
    (written : record.responseBody.all storableText &&
        record.error.all storableText →
      (soloDiscipline deployment pid jobId endpoint).Follows post (rest ())
        ({ view with attempts := view.attempts ++ [record] },
          ⟨pid, .insertAttempt record, .ok ()⟩ :: calls))
    (refused : (record.responseBody.all storableText &&
        record.error.all storableText) = false → ∀ failure,
      post (view, ⟨pid, .insertAttempt record, .error failure⟩ :: calls)
        (.error failure)) :
    (soloDiscipline deployment pid jobId endpoint).Follows post
      ((await (.insertAttempt record)).bind rest) (view, calls) := by
  refine Sequential.follows_call (fun _ _ _ _ => ⟨_, rfl⟩) ?_
  rintro choice store _ _ rfl result now rfl
  have stored : store.db.jobs record.jobId = some row := own ▸ found
  have unused : record.attemptNumber ∉
      (store.db.attemptsOf record.jobId).map AttemptRecord.attemptNumber :=
    own ▸ fresh
  dsimp only [result, now]
  by_cases storable : (record.responseBody.all storableText &&
      record.error.all storableText) = true
  · have outcome : store.db.insertAttempt record =
        (.ok (), { store.db with
          deliveryAttempts := store.db.deliveryAttempts ++ [record] }) := by
      unfold Postgres.insertAttempt
      rw [if_neg (by simp [stored]), if_neg unused, if_neg (by simp [storable])]
    have view : (store.withDb { store.db with
        deliveryAttempts := store.db.deliveryAttempts ++ [record] }).view
          jobId = { store.view jobId with
            attempts := (store.view jobId).attempts ++ [record] } := by
      simp [Store.view, Store.withDb, Postgres.attemptsOf, own]
    simp only [exec, outcome]
    rw [view]
    exact written storable
  · have outcome : store.db.insertAttempt record =
        (.error (.other "invalid byte sequence for encoding"), store.db) := by
      unfold Postgres.insertAttempt
      rw [if_neg (by simp [stored]), if_neg unused, if_pos (by simp [storable])]
    simp only [exec, outcome]
    exact refused (by simpa using storable) _

/-- A call at the end of a program. -/
theorem follows_end {call : Call}
    {post : JobView × List Event → Except AppError call.Reply → Prop}
    (spares : ∀ choice store,
      (exec deployment choice call store).2.db = store.db)
    (ends : ∀ choice store,
      post (view, ⟨pid, call, (exec deployment choice call store).1⟩ :: calls)
        (exec deployment choice call store).1) :
    (soloDiscipline deployment pid jobId endpoint).Follows post
      (await call) (view, calls) := by
  have whole : (await call).bind Program.pure = await call := rfl
  rw [← whole]
  refine follows_spared spares fun choice store _ _ => ?_
  have ended := ends choice store
  split <;> rename_i outcome
  · rw [outcome] at ended
    exact Sequential.follows_pure ended
  · rw [outcome] at ended
    exact ended

theorem check_follows {webhookId : WebhookId} {cooldownMs : Int}
    {post : JobView × List Event → Except AppError CircuitState → Prop}
    (ends : ∀ time state, post
      (view, ⟨pid, .checkCircuit webhookId time cooldownMs, .ok state⟩ ::
        ⟨pid, .now, .ok time⟩ :: calls) (.ok state)) :
    (soloDiscipline deployment pid jobId endpoint).Follows post
      (Circuit.check webhookId cooldownMs) (view, calls) :=
  follows_now fun time => follows_end (fun _ _ => rfl) fun _ _ => ends time _

theorem take_follows {webhookId : WebhookId} {rate burst cost : Int}
    {post : JobView × List Event → Except AppError RateResult → Prop}
    (ends : ∀ time outcome, post
      (view, ⟨pid, .take webhookId rate burst time cost, outcome⟩ ::
        ⟨pid, .now, .ok time⟩ :: calls) outcome) :
    (soloDiscipline deployment pid jobId endpoint).Follows post
      (RateLimit.take webhookId rate burst cost) (view, calls) :=
  follows_now fun time => follows_end (fun _ _ => rfl) fun _ _ => ends time _

theorem recordFailure_follows {webhookId : WebhookId} {threshold : Int}
    {post : JobView × List Event → Except AppError CircuitState → Prop}
    (ends : ∀ time state, post
      (view, ⟨pid, .recordFailure webhookId threshold time, .ok state⟩ ::
        ⟨pid, .now, .ok time⟩ :: calls) (.ok state)) :
    (soloDiscipline deployment pid jobId endpoint).Follows post
      (Circuit.recordFailure webhookId threshold) (view, calls) :=
  follows_now fun time => follows_end (fun _ _ => rfl) fun _ _ => ends time _

/-! ## What a call of `process` does -/

theorem barred_cons {event : Event} (barred : ¬GatesOpen calls) :
    ¬GatesOpen (event :: calls) :=
  fun opened => barred (List.forall_mem_cons.mp opened).2

theorem releasesOf_cons (event : Event) :
    releasesOf jobId (event :: calls) = releasesOf jobId calls +
      if event.call.releases? = some jobId then 1 else 0 := by
  simp [releasesOf, List.countP_cons]

theorem unreleased_cons {event : Event} (kept : releasesOf jobId calls = 0)
    (keeps : event.call.releases? = none) :
    releasesOf jobId (event :: calls) = 0 := by
  rw [releasesOf_cons, keeps, kept]
  rfl

variable {row : JobRow} {reply : DeliveryReply} {before : JobView}

/-- The end of a call of `process`. -/
abbrev Ends (jobId : JobId) (row : JobRow) (reply : DeliveryReply)
    (before : JobView) (now : JobView × List Event)
    (outcome : Except AppError Unit) : Prop :=
  Processed jobId row reply before now.1 now.2 outcome

theorem deferUntil_follows {job : Job} {runAtMs : Int} {current : JobRow}
    (own : job.id = jobId) (found : view.row = some current)
    (barred : ¬GatesOpen calls) :
    (soloDiscipline deployment pid jobId endpoint).Follows
      (Ends jobId row reply before)
      (JobService.deferUntil jobId job runAtMs) (view, calls) := by
  refine follows_update own found rfl ?_ ?_
  · intro now _
    exact follows_end (fun _ _ => rfl) fun _ _ =>
      .barred (barred_cons (barred_cons barred))
  · exact fun _ failure => .barred (barred_cons barred)

/-- A delivery has been recorded, and its attempt not been counted yet. -/
structure Delivered (jobId : JobId) (row : JobRow) (reply : DeliveryReply)
    (before view : JobView) (calls : List Event) : Prop where
  storable : reply.storable
  recorded : ∃ record, view.attempts = before.attempts ++ [record]
  current : ∃ current, view.row = some current ∧
    current.attempts = row.attempts ∧ current.maxAttempts = row.maxAttempts
  unreleased : releasesOf jobId calls = 0

theorem Delivered.cons {event : Event}
    (delivered : Delivered jobId row reply before view calls)
    (keeps : event.call.releases? = none) :
    Delivered jobId row reply before view (event :: calls) where
  storable := delivered.storable
  recorded := delivered.recorded
  current := delivered.current
  unreleased := unreleased_cons delivered.unreleased keeps

/-- The attempt of a delivery is counted, and the claim ended. -/
theorem spend_follows {update : StateUpdate} {rest : Option Job → Async Unit}
    (delivered : Delivered jobId row reply before view calls)
    (within : row.attempts ≤ row.maxAttempts) (own : update.id = jobId)
    (counts : update.incrementAttempts = true)
    (storable : update.lastError.all storableText)
    (released : ∀ {now : JobView × List Event} {found : Option Job},
      (∀ event : Event, event.call.releases? = some jobId →
        Ends jobId row reply before (now.1, event :: now.2) (.ok ())) →
        (soloDiscipline deployment pid jobId endpoint).Follows
          (Ends jobId row reply before) (rest found) now) :
    (soloDiscipline deployment pid jobId endpoint).Follows
      (Ends jobId row reply before)
      ((JobRepository.updateState update).bind rest) (view, calls) := by
  obtain ⟨current, found, attempts, maxAttempts⟩ := delivered.current
  obtain ⟨record, recorded⟩ := delivered.recorded
  refine follows_update own found storable ?_ ?_
  · intro now _
    apply released
    intro event releases
    refine .settled delivered.storable recorded rfl ?_ ?_
    · simp [StateUpdate.apply, counts, attempts]
    · rw [releasesOf_cons, if_pos releases,
        unreleased_cons delivered.unreleased rfl]
  · intro exceeds failure
    rw [counts, if_pos rfl] at exceeds
    exact .overspent (by omega)

theorem settle_follows {job : Job} {result : DeliveryService.DeliveryResult}
    (delivered : Delivered jobId row reply before view calls)
    (own : job.id = jobId) (within : row.attempts ≤ row.maxAttempts)
    (error : result.error = reply.error) :
    (soloDiscipline deployment pid jobId endpoint).Follows
      (Ends jobId row reply before)
      (JobService.settle deployment jobId job result) (view, calls) := by
  have storable : result.error.all storableText := by
    have storable := delivered.storable
    rw [DeliveryReply.storable, Bool.and_eq_true] at storable
    rw [error]
    exact storable.2
  unfold JobService.settle
  split
  · refine follows_read (fun _ => True) (fun _ _ => rfl)
      (fun _ _ _ => ⟨(), rfl, trivial⟩) fun _ _ => ?_
    apply spend_follows (delivered.cons rfl) within own rfl rfl
    intro now _ released
    exact follows_end (fun _ _ => rfl) fun _ _ => released _ rfl
  · refine Discipline.Follows.bind (recordFailure_follows ?_)
    intro time state
    have counted := @Delivered.cons _ _ _ _ _ _ ⟨pid, .recordFailure
      job.webhookId deployment.failureThreshold time, .ok state⟩
      (@Delivered.cons _ _ _ _ _ _ ⟨pid, .now, .ok time⟩ delivered rfl) rfl
    dsimp only
    split
    · apply spend_follows counted within own rfl storable
      intro now _ released
      exact follows_end (fun _ _ => rfl) fun _ _ => released _ rfl
    · refine Discipline.Follows.bind (follows_read (fun _ => True)
        (fun _ _ => rfl) (fun choice _ _ => ⟨choice.dice, rfl, trivial⟩)
        fun dice _ => Sequential.follows_pure ?_)
      refine follows_now fun now => ?_
      refine spend_follows ((counted.cons rfl).cons rfl) within own rfl
        storable ?_
      intro now _ released
      exact follows_end (fun _ _ => rfl) fun _ _ => released _ rfl

/-- The `try` block of `deliver` returns the reply of the endpoint. -/
theorem send_follows {request : DeliveryRequest}
    (unreleased : releasesOf jobId calls = 0) :
    let reply := (endpoint.behindRefusal
      (deployment.refusal request.url request.eventType)).reply
    (soloDiscipline deployment pid jobId endpoint).Follows
      (fun now outcome => now.1 = view ∧ releasesOf jobId now.2 = 0 ∧
        outcome = .ok (reply.statusCode, reply.responseBody, reply.error))
      (DeliveryService.send request) (view, calls) := by
  refine follows_attempt (fun _ _ => rfl) ?_
  intro choice store behind
  have sent : (exec deployment choice (.fetch request) store).1 =
      (endpoint.behindRefusal
        (deployment.refusal request.url request.eventType)).response := by
    simp only [exec]
    cases deployment.refusal request.url request.eventType with
    | some failure => rfl
    | none => exact behind.1
  have text : (endpoint.behindRefusal (deployment.refusal request.url
      request.eventType)).text = endpoint.text := by
    cases deployment.refusal request.url request.eventType <;> rfl
  rw [sent]
  unfold Endpoint.reply
  split
  next failure failed =>
    rw [failed]
    exact Sequential.follows_pure ⟨rfl, unreleased_cons unreleased rfl, rfl⟩
  next status answered =>
    rw [answered]
    refine follows_attempt (fun _ _ => rfl) ?_
    intro choice store behind
    have read : (exec deployment choice .responseText store).1 =
        endpoint.text := behind.2
    rw [read, ← text]
    split
    next failure failed =>
      rw [failed]
      exact Sequential.follows_pure
        ⟨rfl, unreleased_cons (unreleased_cons unreleased rfl) rfl, rfl⟩
    next text answered =>
      rw [answered]
      exact Sequential.follows_pure
        ⟨rfl, unreleased_cons (unreleased_cons unreleased rfl) rfl, rfl⟩

/-- A delivery is recorded unless Postgres refuses a text of the reply. -/
theorem deliver_follows {job : Job} {webhookUrl secret : String}
    (unreleased : releasesOf jobId calls = 0) (own : job.id = jobId)
    {current : JobRow} (found : view.row = some current) :
    let reply := (endpoint.behindRefusal
      (deployment.refusal webhookUrl job.eventType)).reply
    (soloDiscipline deployment pid jobId endpoint).Follows
      (fun now outcome => releasesOf jobId now.2 = 0 ∧
        match outcome with
        | .ok result => reply.storable ∧ result.error = reply.error ∧
            ∃ record, now.1 =
              { view with attempts := view.attempts ++ [record] }
        | .error _ => reply.storable = false)
      (DeliveryService.deliver deployment job webhookUrl secret)
      (view, calls) := by
  subst own
  refine follows_read (fun number =>
      number ∉ view.attempts.map AttemptRecord.attemptNumber)
    (fun _ _ => rfl) ?_ ?_
  · rintro choice store rfl
    exact ⟨_, rfl, nextAttemptNumber_fresh store.db job.id⟩
  intro number fresh
  refine follows_now fun startedAt => follows_now fun timestamp => ?_
  refine Discipline.Follows.bind ((send_follows (unreleased_cons
    (unreleased_cons (unreleased_cons unreleased rfl) rfl) rfl)).mono ?_)
  rintro ⟨_, calls⟩ outcome ⟨rfl, unreleased, rfl⟩
  refine follows_now fun endedAt => ?_
  refine follows_insertAttempt rfl found fresh ?_ ?_
  · intro storable
    exact Sequential.follows_pure
      ⟨unreleased_cons (unreleased_cons unreleased rfl) rfl, storable, rfl,
        _, rfl⟩
  · exact fun refused failure =>
      ⟨unreleased_cons (unreleased_cons unreleased rfl) rfl, refused⟩

/-- A job whose webhook is registered and has a secret, as the foreign key of
its row and `register` provide. -/
structure Deliverable (view : JobView) (row : JobRow) (webhook : WebhookRow) :
    Prop where
  found : view.row = some row
  registered : view.webhook = some webhook
  signed : webhook.secret ≠ ""
  /-- The check constraint of the table. -/
  within : row.attempts ≤ row.maxAttempts

theorem deliverJob_follows {webhook : WebhookRow}
    (deliverable : Deliverable before row webhook)
    (own : row.id = jobId) (unreleased : releasesOf jobId calls = 0) :
    (soloDiscipline deployment pid jobId endpoint).Follows
      (Ends jobId row (endpoint.behindRefusal
        (deployment.refusal webhook.url row.eventType)).reply before)
      (JobService.deliverJob deployment jobId row.toJob) (before, calls) := by
  have registered : ∀ store : Store, ∀ now,
      store.view jobId = { before with
        row := some (StateUpdate.apply
          { id := row.toJob.id, state := .inFlight } now row) } →
      store.db.webhooks row.webhookId = some webhook := by
    intro store now same
    have registered := congrArg JobView.webhook same
    have stored := congrArg JobView.row same
    simp only [Store.view] at registered stored
    rw [stored, deliverable.registered] at registered
    exact registered
  refine follows_update own deliverable.found rfl ?_ ?_
  swap
  · intro exceeds failure
    have within := deliverable.within
    simp only [Bool.false_eq_true, if_false] at exceeds
    omega
  intro now _
  refine Discipline.Follows.bind (follows_read
    (fun found => found = some webhook.toWebhook) (fun _ _ => rfl) ?_ ?_)
  · intro choice store same
    refine ⟨_, rfl, ?_⟩
    show (store.db.webhooks row.webhookId).map _ = _
    rw [registered store now same]
    rfl
  rintro _ rfl
  apply Sequential.follows_pure
  refine Discipline.Follows.bind (follows_read
    (fun secret => secret = some webhook.secret) (fun _ _ => rfl) ?_ ?_)
  · intro choice store same
    refine ⟨_, rfl, ?_⟩
    show (store.db.webhooks row.webhookId).map _ = _
    rw [registered store now same]
    rfl
  rintro _ rfl
  show (soloDiscipline deployment pid jobId endpoint).Follows _ (ite _ _ _) _
  rw [if_neg deliverable.signed]
  apply Sequential.follows_pure
  refine Discipline.Follows.bind ((deliver_follows (unreleased_cons
    (unreleased_cons (unreleased_cons unreleased rfl) rfl) rfl)
      own rfl).mono ?_)
  rintro ⟨after, calls⟩ (failure | result) ⟨unreleased, ended⟩
  · exact .unrecorded ended
  · obtain ⟨storable, error, record, rfl⟩ := ended
    exact settle_follows ⟨storable, ⟨record, rfl⟩, ⟨_, rfl, rfl, rfl⟩,
      unreleased⟩ own deliverable.within error

/-- A call of `process` on an unfinished job. -/
theorem process_follows {webhook : WebhookRow}
    (deliverable : Deliverable before row webhook)
    (own : row.id = jobId)
    (unfinished : ¬(row.state = .succeeded ∨ row.state = .dead)) :
    (soloDiscipline deployment pid jobId endpoint).Follows
      (Ends jobId row (endpoint.behindRefusal
        (deployment.refusal webhook.url row.eventType)).reply before)
      (JobService.process deployment jobId) (before, []) := by
  refine follows_read (fun found => found = some row.toJob)
    (fun _ _ => rfl) ?_ ?_
  · rintro choice store rfl
    refine ⟨_, rfl, ?_⟩
    show (store.db.jobs jobId).map _ = _
    have stored : store.db.jobs jobId = some row := deliverable.found
    rw [stored]
    rfl
  rintro _ rfl
  show (soloDiscipline deployment pid jobId endpoint).Follows _ (ite _ _ _) _
  have unfinished : ¬(row.toJob.state = .succeeded ∨
      row.toJob.state = .dead) := unfinished
  rw [if_neg unfinished]
  refine Discipline.Follows.bind (check_follows ?_)
  intro time state
  dsimp only
  split
  next opened =>
    refine follows_now fun now => ?_
    refine deferUntil_follows own deliverable.found (barred_cons ?_)
    intro open_
    have shut := open_ _ List.mem_cons_self
    simp [Event.bars, opened] at shut
  refine Discipline.Follows.bind (take_follows ?_)
  rintro time (failure | rate)
  · refine .barred ?_
    intro open_
    have shut := open_ _ List.mem_cons_self
    cases shut
  dsimp only
  split
  next refused =>
    refine follows_now fun now => ?_
    refine deferUntil_follows own deliverable.found (barred_cons ?_)
    intro open_
    have shut := open_ _ List.mem_cons_self
    simp only [Event.bars] at shut
    rw [shut] at refused
    cases refused
  · exact deliverJob_follows deliverable own rfl

end Solo

end WebhookDelivery
