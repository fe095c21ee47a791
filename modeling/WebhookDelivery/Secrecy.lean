import WebhookDelivery.Library.Twins
import WebhookDelivery.Fencing
import WebhookDelivery.Passes

/-!
# Secrets are only good for signing

The secret of a webhook leaves the database to sign requests.  Two runs that
differ in nothing but the secrets the webhooks were registered with show the
same in every other respect: the queue, the rows, the audit trail, and whatever
the processes are told and answer.
-/

namespace WebhookDelivery

open Concurrency

/-! ## What there is to see without the secrets -/

/-- All that `getSecret` says of a secret is whether there is one. -/
def mask (secret : String) : String :=
  if secret = "" then "" else "*"

def WebhookRow.masked (row : WebhookRow) : WebhookRow :=
  { row with secret := mask row.secret }

def DeliveryRequest.masked (request : DeliveryRequest) : DeliveryRequest :=
  { request with signature := "" }

def Call.masked : Call → Call
  | .fetch request => .fetch request.masked
  | call => call

def Event.masked : Event → Event
  | ⟨pid, .fetch request, outcome⟩ => ⟨pid, .fetch request.masked, outcome⟩
  | ⟨pid, .findSecret id, outcome⟩ =>
      ⟨pid, .findSecret id, outcome.map (Option.map mask)⟩
  | event => event

def Action.masked : Action → Action
  | .registerWebhook row => .registerWebhook row.masked
  | action => action

def Postgres.masked (db : Postgres) : Postgres :=
  { db with webhooks := fun id => (db.webhooks id).map WebhookRow.masked }

def Store.masked (store : Store) : Store :=
  store.withDb store.db.masked

/-- A process without its program: the call it waits for, or what it has
returned. -/
structure ProcessView where
  role : Role
  claim : Claim
  quit : Bool
  severed : Bool
  pending : Option Call
  outcome : Option (Except AppError Result)

def Status.outcome? : Status → Option (Except AppError Result)
  | .returned outcome => some outcome
  | _ => none

def Process.view (process : Process) : ProcessView where
  role := process.role
  claim := process.claim
  quit := process.quit
  severed := process.severed
  pending := process.pending?.map Call.masked
  outcome := process.status.outcome?

/-- All there is to see of a state, but the secrets. -/
structure View where
  store : Store
  processes : Pid → Option ProcessView
  history : List Event

def State.view (state : State) : View where
  store := state.store.masked
  processes := fun pid => (state.processes pid).map Process.view
  history := state.history.map Event.masked

/-! ## Calls and answers -/

/-- Calls that differ at most in a signature. -/
inductive AskedAlike : Call → Call → Prop
  | same {call} : AskedAlike call call
  | fetch {request other : DeliveryRequest}
      (same : request.masked = other.masked) :
      AskedAlike (.fetch request) (.fetch other)

/-- Replies that differ at most in a secret. -/
inductive AnsweredAlike :
    (call other : Call) → call.Reply → other.Reply → Prop
  | same {call} {reply : call.Reply} : AnsweredAlike call call reply reply
  | fetch {request other : DeliveryRequest} {status : Nat} :
      AnsweredAlike (.fetch request) (.fetch other) status status
  | secret {id : WebhookId} {found other : Option String}
      (same : found.map mask = other.map mask) :
      AnsweredAlike (.findSecret id) (.findSecret id) found other

/-- The call does not read a secret. -/
def Call.blind : Call → Bool
  | .findSecret _ => false
  | _ => true

variable {deployment : Deployment} {call other : Call}

theorem mask_eq_iff {secret other : String} :
    mask secret = mask other ↔ (secret = "" ↔ other = "") := by
  unfold mask
  split <;> split <;> simp_all

theorem AskedAlike.masked (asked : AskedAlike call other) :
    call.masked = other.masked := by
  cases asked with
  | same => rfl
  | fetch same => exact congrArg Call.fetch same

theorem AskedAlike.onStore (asked : AskedAlike call other) :
    call.onStore = other.onStore := by
  cases asked <;> rfl

theorem AskedAlike.connected (asked : AskedAlike call other)
    {process twin : Process} (severed : process.severed = twin.severed) :
    process.connected call = twin.connected other := by
  cases asked with
  | same =>
      cases call <;> simp only [Process.connected, severed]
  | fetch => rfl

theorem AnsweredAlike.eq_of_blind {reply answer : call.Reply}
    (answered : AnsweredAlike call call reply answer) (blind : call.blind) :
    reply = answer := by
  cases answered with
  | same => rfl
  | fetch => rfl
  | secret => cases blind

theorem AnsweredAlike.secrets {id : WebhookId} {found another : Option String}
    (answered : AnsweredAlike (.findSecret id) (.findSecret id) found another) :
    found.map mask = another.map mask := by
  cases answered with
  | same => rfl
  | secret same => exact same

theorem AnsweredAlike.statuses {request another : DeliveryRequest}
    {status answer : Nat}
    (answered : AnsweredAlike (.fetch request) (.fetch another) status answer) :
    status = answer := by
  cases answered <;> rfl

/-! ## Programs -/

/-- The programs make calls that look the same, and end with the same. -/
abbrev TwinPrograms {Value : Type} (program twin : Async Value) : Prop :=
  Program.Twins AskedAlike AnsweredAlike Eq program twin

theorem twins_of_blind {Value : Type} {program : Async Value}
    (blind : program.Within fun call => call.blind) :
    TwinPrograms program program :=
  .of_within (fun _ _ => .same)
    (fun _ blind {_ _} answered => answered.eq_of_blind blind) blind

/-- A call that both programs make with the same answer. -/
theorem bind_blind {Value : Type} {rest twin : call.Reply → Async Value}
    (blind : call.blind)
    (same : ∀ reply, TwinPrograms (rest reply) (twin reply)) :
    TwinPrograms (await call >>= rest) (await call >>= twin) := by
  refine .bind (.perform .same) fun {reply answer} answered => ?_
  have equal := answered.eq_of_blind blind
  subst equal
  exact same reply

theorem getById_blind (id : WebhookId) :
    (WebhookService.getById id).Within fun call => call.blind :=
  .bind (.perform rfl) fun webhook => by
    cases webhook <;> trivial

theorem getOwnedBy_blind (id : WebhookId) (tenant : String) :
    (WebhookService.getOwnedBy id tenant).Within fun call => call.blind :=
  .bind (.perform rfl) fun webhook => by
    cases webhook with
    | none => trivial
    | some webhook =>
        dsimp only
        split <;> trivial

/-- Programs that make only calls of a kind to which the reading of secrets
does not belong. -/
theorem blind_of_within {Value : Type} {program : Async Value}
    {kind : Call → Bool} (within : program.Within fun call => kind call)
    (excludes : ∀ id, kind (.findSecret id) = false) :
    program.Within fun call => call.blind :=
  within.mono fun call member => by
    cases call with
    | findSecret id =>
        rw [excludes id] at member
        cases member
    | _ => rfl

theorem enqueue_blind (input : EnqueueInput) :
    (JobService.enqueue input).Within fun call => call.blind := by
  have creates := blind_of_within (createOrAbort_within input) fun _ => rfl
  refine .bind (getOwnedBy_blind _ _) fun webhook => ?_
  split
  · trivial
  split
  · exact creates
  refine .bind (blind_of_within (begin_within _ _) fun _ => rfl)
    fun outcome => ?_
  cases outcome with
  | new => exact creates
  | duplicate jobId =>
      refine .bind (.perform rfl) fun existing => ?_
      cases existing with
      | none => exact creates
      | some job => trivial
  | pending => trivial

theorem settle_blind (deployment : Deployment) (jobId : JobId) (job : Job)
    (result : DeliveryService.DeliveryResult) :
    (JobService.settle deployment jobId job result).Within
      fun call => call.blind := by
  unfold JobService.settle
  split
  · refine .bind (.perform rfl) fun _ => ?_
    exact .bind (.perform rfl) fun _ => .perform rfl
  · refine .bind (.bind (.perform rfl) fun _ => .perform rfl) fun _ => ?_
    dsimp only
    split
    · exact .bind (.perform rfl) fun _ => .perform rfl
    · refine .bind (.bind (.perform rfl) fun _ => trivial) fun _ => ?_
      refine .bind (.perform rfl) fun _ => ?_
      exact .bind (.perform rfl) fun _ => .perform rfl

/-- Whatever the secret is, it is found, or not. -/
theorem getSecret_twins (id : WebhookId) :
    Program.Twins AskedAlike AnsweredAlike (fun _ _ => True)
      (WebhookService.getSecret id) (WebhookService.getSecret id) := by
  refine .bind (.perform .same) fun {found other} answered => ?_
  have same := answered.secrets
  cases found with
  | none =>
      cases other with
      | none => exact .throw
      | some secret => cases same
  | some secret =>
      cases other with
      | none => cases same
      | some another =>
          have empty := mask_eq_iff.mp (Option.some.inj same)
          by_cases missing : secret = ""
          · rw [missing, empty.mp missing]
            exact .throw
          · dsimp only
            rw [if_neg missing, if_neg fun gone => missing (empty.mpr gone)]
            exact .pure trivial

/-- The outcome of a request does not depend on its signature. -/
theorem send_twins {request another : DeliveryRequest}
    (same : request.masked = another.masked) :
    TwinPrograms (DeliveryService.send request)
      (DeliveryService.send another) := by
  refine .bind (.attempt (.perform (.fetch same)))
    fun {outcome answer} alike => ?_
  have equal : (outcome : Except AppError Nat) = answer :=
    Program.TwinOutcomes.eq alike AnsweredAlike.statuses
  subst equal
  cases outcome with
  | ok status =>
      exact twins_of_blind (.bind (.attempt (.perform rfl)) fun text => by
        cases text <;> trivial)
  | error failure => exact .pure rfl

theorem deliver_twins (deployment : Deployment) (job : Job)
    (webhookUrl secret other : String) :
    TwinPrograms
      (DeliveryService.deliver deployment job webhookUrl secret)
      (DeliveryService.deliver deployment job webhookUrl other) := by
  refine bind_blind rfl fun attemptNumber => ?_
  refine bind_blind rfl fun startedAt => ?_
  refine bind_blind rfl fun timestamp => ?_
  refine .bind (send_twins rfl) fun {outcome answer} same => ?_
  subst same
  exact twins_of_blind (.bind (.perform rfl) fun _ =>
    .bind (.perform rfl) fun _ => trivial)

theorem deliverJob_twins (deployment : Deployment) (jobId : JobId)
    (job : Job) :
    TwinPrograms (JobService.deliverJob deployment jobId job)
      (JobService.deliverJob deployment jobId job) := by
  refine bind_blind rfl fun _ => ?_
  refine .bind (twins_of_blind (getById_blind _)) fun {webhook _} same => ?_
  subst same
  refine .bind (getSecret_twins _) fun {secret other} _ => ?_
  refine .bind (deliver_twins deployment job _ secret other)
    fun {result _} same => ?_
  subst same
  exact twins_of_blind (settle_blind _ _ _ _)

theorem process_twins (deployment : Deployment) (jobId : JobId) :
    TwinPrograms (JobService.process deployment jobId)
      (JobService.process deployment jobId) := by
  refine bind_blind rfl fun found => ?_
  cases found with
  | none => exact twins_of_blind (.perform rfl)
  | some job =>
      dsimp only
      split
      · exact twins_of_blind (.perform rfl)
      refine .bind (twins_of_blind (.bind (.perform rfl) fun _ => .perform rfl))
        fun {state _} same => ?_
      subst same
      split
      · exact twins_of_blind (.bind (.perform rfl) fun _ =>
          .bind (.perform rfl) fun _ => .perform rfl)
      refine .bind (twins_of_blind (.bind (.perform rfl) fun _ => .perform rfl))
        fun {rate _} same => ?_
      subst same
      split
      · exact twins_of_blind (.bind (.perform rfl) fun _ =>
          .bind (.perform rfl) fun _ => .perform rfl)
      · exact deliverJob_twins _ _ _

theorem consume_twins (deployment : Deployment) :
    TwinPrograms (Worker.consume deployment) (Worker.consume deployment) := by
  refine .bind (twins_of_blind (.attempt
    (blind_of_within reserve_within fun _ => rfl))) fun {popped _} same => ?_
  subst same
  rcases popped with _ | _ | jobId
  · exact .pure rfl
  · exact .pure rfl
  · exact .tryCatch (process_twins _ _) fun _ => .pure rfl

theorem main_twins (deployment : Deployment) (role : Role) :
    TwinPrograms (role.main deployment) (role.main deployment) := by
  cases role with
  | enqueue input =>
      exact twins_of_blind (.bind (enqueue_blind input) fun _ => trivial)
  | replay limit =>
      exact twins_of_blind (.bind (blind_of_within
        (replayLoop_within limit []) fun _ => rfl) fun _ => trivial)
  | worker =>
      exact .bind (consume_twins deployment) fun _ => .pure rfl

/-! ## The stores -/

section Stores

variable (deployment : Deployment) (choice : Choice)

theorem insertJob_masked (jsonb : String → Option String)
    (maxAttempts : Nat) (uuid : JobId) (now : Int) (input : JobInput)
    (db : Postgres) :
    db.masked.insertJob jsonb maxAttempts uuid now input =
      ((db.insertJob jsonb maxAttempts uuid now input).1,
        (db.insertJob jsonb maxAttempts uuid now input).2.masked) := by
  unfold Postgres.insertJob
  simp only [Postgres.masked, Option.isNone_map]
  split
  · rfl
  split
  · rfl
  split
  · rfl
  split <;> rfl

theorem updateState_masked (now : Int) (update : StateUpdate)
    (db : Postgres) :
    db.masked.updateState now update =
      ((db.updateState now update).1,
        (db.updateState now update).2.masked) := by
  unfold Postgres.updateState
  simp only [Postgres.masked]
  split
  · rfl
  split
  · rfl
  split <;> rfl

theorem resetForReplay_masked (now : Int) (id : JobId) (db : Postgres) :
    db.masked.resetForReplay now id =
      ((db.resetForReplay now id).1, (db.resetForReplay now id).2.masked) := by
  unfold Postgres.resetForReplay
  simp only [Postgres.masked]
  split <;> rfl

theorem insertAttempt_masked (record : AttemptRecord) (db : Postgres) :
    db.masked.insertAttempt record =
      ((db.insertAttempt record).1, (db.insertAttempt record).2.masked) := by
  have trail : db.masked.attemptsOf record.jobId =
      db.attemptsOf record.jobId := rfl
  unfold Postgres.insertAttempt
  by_cases absent : (db.jobs record.jobId).isNone
  · have absentToo : (db.masked.jobs record.jobId).isNone := absent
    rw [if_pos absent, if_pos absentToo]
  have present : ¬(db.masked.jobs record.jobId).isNone := absent
  rw [if_neg absent, if_neg present, trail]
  split
  · rfl
  split <;> rfl

theorem Postgres.insertWebhook_masked (row : WebhookRow) (db : Postgres) :
    (db.insertWebhook row).masked = db.masked.insertWebhook row.masked := by
  simp only [Postgres.insertWebhook, Postgres.masked, Postgres.mk.injEq,
    true_and]
  refine ⟨?_, rfl⟩
  funext id
  rw [Function.update_apply, Function.update_apply]
  split <;> simp_all [WebhookRow.masked]

theorem Postgres.deleteWebhook_masked (id : WebhookId) (db : Postgres) :
    (db.deleteWebhook id).masked = db.masked.deleteWebhook id := by
  simp only [Postgres.deleteWebhook, Postgres.masked, Postgres.mk.injEq,
    true_and, and_true]
  funext other
  rw [Function.update_apply, Function.update_apply]
  split <;> rfl

/-- A call does to the rest of the store what it does without the secrets. -/
theorem exec_masked (call : Call) (store : Store) :
    (exec deployment choice call store.masked).2 =
      (exec deployment choice call store).2.masked := by
  cases call with
  | insertJob input =>
      simp only [exec, Store.masked, Store.withDb, insertJob_masked]
  | updateState update =>
      simp only [exec, Store.masked, Store.withDb, updateState_masked]
  | resetForReplay id =>
      simp only [exec, Store.masked, Store.withDb, resetForReplay_masked]
  | insertAttempt record =>
      simp only [exec, Store.masked, Store.withDb, insertAttempt_masked]
  | _ => rfl

/-- A call that reads no secret is answered as without the secrets. -/
theorem exec_reply_masked {call : Call} (blind : call.blind) (store : Store) :
    (exec deployment choice call store.masked).1 =
      (exec deployment choice call store).1 := by
  cases call with
  | insertJob input =>
      simp only [exec, Store.masked, Store.withDb, insertJob_masked]
  | updateState update =>
      simp only [exec, Store.masked, Store.withDb, updateState_masked]
  | resetForReplay id =>
      simp only [exec, Store.masked, Store.withDb, resetForReplay_masked]
  | insertAttempt record =>
      simp only [exec, Store.masked, Store.withDb, insertAttempt_masked]
  | findWebhook id =>
      simp only [exec, Store.masked, Store.withDb, Postgres.masked,
        Option.map_map]
      rfl
  | findSecret id => cases blind
  | _ => rfl

variable {store twin : Store} {call other : Call}

theorem exec_twins (stores : store.masked = twin.masked)
    (asked : AskedAlike call other) :
    (exec deployment choice call store).2.masked =
        (exec deployment choice other twin).2.masked ∧
      Program.TwinOutcomes (AnsweredAlike call other)
        (exec deployment choice call store).1
        (exec deployment choice other twin).1 := by
  cases asked with
  | @fetch request another same =>
      refine ⟨stores, ?_⟩
      have url : request.masked.url = another.masked.url := by rw [same]
      have eventType : request.masked.eventType = another.masked.eventType :=
        by rw [same]
      change request.url = another.url at url
      change request.eventType = another.eventType at eventType
      simp only [exec, url, eventType]
      cases deployment.refusal another.url another.eventType with
      | some failure => rfl
      | none =>
          cases choice.response with
          | ok status => exact AnsweredAlike.fetch
          | error failure => rfl
  | same =>
      refine ⟨by rw [← exec_masked, stores, exec_masked], ?_⟩
      by_cases blind : call.blind
      · have equal : (exec deployment choice call store).1 =
            (exec deployment choice call twin).1 := by
          rw [← exec_reply_masked deployment choice blind store, stores,
            exec_reply_masked deployment choice blind twin]
        rw [equal]
        cases (exec deployment choice call twin).1 with
        | ok reply => exact .same
        | error failure => rfl
      · cases call with
        | findSecret id =>
            have rows := congrArg (fun store : Store =>
              (store.db.webhooks id).map WebhookRow.secret) stores
            simp only [Store.masked, Store.withDb, Postgres.masked,
              Option.map_map] at rows
            apply AnsweredAlike.secret
            rw [Option.map_map, Option.map_map]
            exact rows
        | _ => exact absurd rfl blind

end Stores

/-! ## Runs -/

inductive Status.Twin : Status → Status → Prop
  | running {program twin : Async Result}
      (twins : TwinPrograms program twin) :
      Status.Twin (.running program) (.running twin)
  | returned {outcome} : Status.Twin (.returned outcome) (.returned outcome)
  | crashed : Status.Twin .crashed .crashed

/-- The processes look the same, and will as long as they are told the
same. -/
structure Process.Twin (process twin : Process) : Prop where
  role : process.role = twin.role
  claim : process.claim = twin.claim
  quit : process.quit = twin.quit
  severed : process.severed = twin.severed
  status : process.status.Twin twin.status

/-- The states look the same, and will after the same actions. -/
structure State.Twin (state twin : State) : Prop where
  store : state.store.masked = twin.store.masked
  processes : ∀ pid,
    Option.Rel Process.Twin (state.processes pid) (twin.processes pid)
  history : state.history.map Event.masked = twin.history.map Event.masked

theorem Process.Twin.view_eq {process twin : Process}
    (same : process.Twin twin) : process.view = twin.view := by
  obtain ⟨role, claim, quit, severed, status⟩ := process
  obtain ⟨_, _, _, _, other⟩ := twin
  obtain ⟨rfl, rfl, rfl, rfl, alike⟩ := same
  cases alike with
  | running twins =>
      cases twins with
      | call asked =>
          simp [Process.view, Process.pending?, Program.request?,
            Status.outcome?, asked.masked]
      | _ => rfl
  | _ => rfl

theorem State.Twin.view_eq {state twin : State} (same : state.Twin twin) :
    state.view = twin.view := by
  have processes : (fun pid => (state.processes pid).map Process.view) =
      fun pid => (twin.processes pid).map Process.view := by
    funext pid
    have alike := same.processes pid
    generalize state.processes pid = mine,
      twin.processes pid = other at alike ⊢
    cases alike with
    | none => rfl
    | some alike => exact congrArg some alike.view_eq
  simp only [State.view, same.store, processes, same.history]

section Processes

variable {deployment : Deployment} {process twin : Process}

/-- Processes with twin programs go on as twins. -/
theorem Process.Twin.proceed (same : process.Twin twin)
    {program another : Async Result} (twins : TwinPrograms program another)
    (claim : Claim) :
    (process.proceed deployment program claim).Twin
      (twin.proceed deployment another claim) := by
  have ends : ∀ outcome, (process.finish deployment outcome).Twin
      (twin.finish deployment outcome) := by
    intro outcome
    unfold Process.finish
    rw [same.role, same.quit]
    split
    · exact ⟨rfl, rfl, rfl, same.severed,
        .running (main_twins deployment _)⟩
    · exact ⟨rfl, rfl, rfl, same.severed, .returned⟩
  cases twins with
  | pure equal =>
      subst equal
      exact ends _
  | throw => exact ends _
  | call asked replied failed =>
      exact ⟨same.role, rfl, same.quit, same.severed,
        .running (.call asked replied failed)⟩

/-- Claims are staked by what looks the same. -/
theorem Claim.after_twins {call other : Call} (asked : AskedAlike call other)
    {outcome : Except AppError call.Reply}
    {answer : Except AppError other.Reply}
    (same : Program.TwinOutcomes (AnsweredAlike call other) outcome answer)
    (claim : Claim) :
    claim.after call outcome = claim.after other answer := by
  cases asked with
  | fetch => rfl
  | same =>
      by_cases blind : call.blind
      · rw [same.eq fun answered => answered.eq_of_blind blind]
      · cases call with
        | findSecret id => rfl
        | _ => exact absurd rfl blind

end Processes

theorem Event.masked_twins {call other : Call} (asked : AskedAlike call other)
    {outcome : Except AppError call.Reply}
    {answer : Except AppError other.Reply}
    (same : Program.TwinOutcomes (AnsweredAlike call other) outcome answer)
    (pid : Pid) :
    (⟨pid, call, outcome⟩ : Event).masked =
      (⟨pid, other, answer⟩ : Event).masked := by
  cases asked with
  | @fetch request another masked =>
      have equal : (outcome : Except AppError Nat) = answer :=
        Program.TwinOutcomes.eq same AnsweredAlike.statuses
      subst equal
      exact congrArg (fun request => (⟨pid, .fetch request, outcome⟩ : Event))
        masked
  | same =>
      by_cases blind : call.blind
      · rw [same.eq fun answered => answered.eq_of_blind blind]
      · cases call with
        | findSecret id =>
            cases outcome with
            | ok reply =>
                cases answer with
                | ok other =>
                    simp only [Event.masked, Except.map, same.secrets]
                | error failure => cases same
            | error failure =>
                cases answer with
                | ok other => cases same
                | error failure => rw [show _ = _ from same]
        | _ => exact absurd rfl blind

theorem Action.of_masked_eq {action other : Action}
    (looks : action.masked = other.masked) :
    action = other ∨ ∃ row another, action = .registerWebhook row ∧
      other = .registerWebhook another ∧ row.masked = another.masked := by
  cases action with
  | registerWebhook row =>
      cases other with
      | registerWebhook another =>
          exact .inr ⟨row, another, rfl, rfl,
            Action.registerWebhook.inj looks⟩
      | _ => simp [Action.masked] at looks
  | _ =>
      cases other with
      | registerWebhook another => simp [Action.masked] at looks
      | _ => exact .inl looks

namespace State.Twin

variable {deployment : Deployment} {before after twin : State}
  {action other : Action} {pid : Pid}

theorem found (same : before.Twin twin) {process : Process}
    (found : before.processes pid = some process) :
    ∃ another, twin.processes pid = some another ∧ process.Twin another := by
  have alike := same.processes pid
  rw [found] at alike
  generalize present : twin.processes pid = other at alike
  cases alike with
  | some alike => exact ⟨_, rfl, alike⟩

theorem unused (same : before.Twin twin)
    (unused : before.processes pid = none) : twin.processes pid = none := by
  have alike := same.processes pid
  rw [unused] at alike
  generalize twin.processes pid = other at alike ⊢
  cases alike
  rfl

/-- The same process goes on in both states. -/
theorem update (same : before.Twin twin) {process another : Process}
    (alike : process.Twin another) (target : Pid) :
    Option.Rel Process.Twin
      (Function.update before.processes pid (some process) target)
      (Function.update twin.processes pid (some another) target) := by
  rw [Function.update_apply, Function.update_apply]
  split
  · exact .some alike
  · exact same.processes target

theorem setProcess (same : before.Twin twin) {process another : Process}
    (alike : process.Twin another) :
    (before.setProcess pid process).Twin (twin.setProcess pid another) where
  store := same.store
  processes := same.update alike
  history := same.history

theorem perform (same : before.Twin twin) {choice : Choice}
    {call request : Call} (asked : AskedAlike call request)
    {resumed : Except AppError call.Reply → Process}
    {resumedToo : Except AppError request.Reply → Process}
    (resumes : ∀ {outcome answer},
      Program.TwinOutcomes (AnsweredAlike call request) outcome answer →
        (resumed outcome).Twin (resumedToo answer)) :
    (before.perform deployment pid choice call resumed).Twin
      (twin.perform deployment pid choice request resumedToo) := by
  obtain ⟨stores, answers⟩ := exec_twins deployment choice same.store asked
  refine ⟨stores, same.update (resumes answers), ?_⟩
  simp only [State.perform, List.map_cons, same.history,
    Event.masked_twins asked answers pid]

/-- A call that is answered in one state is answered alike in the other. -/
theorem performed (same : before.Twin twin) {choice : Choice}
    {process : Process} {call : Call} {next : call.Reply → Async Result}
    {rescue : AppError → Async Result}
    {resumed : Except AppError call.Reply → Process}
    (found : before.processes pid = some process)
    (running : process.status = .running (.call call next rescue))
    (connected : process.connected call)
    (resumes : Resumes deployment pid choice process next rescue action
      resumed) :
    ∃ next, step deployment twin action = some next ∧
      (before.perform deployment pid choice call resumed).Twin next := by
  obtain ⟨another, foundToo, alike⟩ := same.found found
  have programs := alike.status
  rw [running] at programs
  generalize runningToo : another.status = status at programs
  cases programs with
  | running twins =>
      cases twins with
      | call asked replied failed =>
          have connectedToo := (asked.connected alike.severed).symm.trans
            connected
          cases resumes with
          | replied =>
              refine ⟨_, by
                simp only [WebhookDelivery.step, foundToo, runningToo,
                  connectedToo, if_true]
                rfl, same.perform asked fun {outcome answer} answers => ?_⟩
              have claims := Claim.after_twins asked answers process.claim
              rw [Process.replied, Process.replied, ← alike.claim, ← claims]
              exact alike.proceed (.resume replied failed answers) _
          | @unanswered failure onStore =>
              have onStoreToo := asked.onStore.symm.trans onStore
              refine ⟨_, by
                simp only [WebhookDelivery.step, foundToo, runningToo,
                  connectedToo, onStoreToo, Bool.and_true, if_true]
                rfl, same.perform asked fun {outcome answer} answers => ?_⟩
              have claims := Claim.after_twins asked answers process.claim
              rw [Process.unanswered, Process.unanswered, ← alike.claim,
                ← claims]
              exact alike.proceed (failed failure) _

/-- The stores change in ways that have nothing to do with secrets. -/
theorem withStore (same : before.Twin twin) {store another : Store}
    (stores : store.masked = another.masked) :
    ({ before with store := store } : State).Twin
      { twin with store := another } where
  store := stores
  processes := same.processes
  history := same.history

theorem redis_eq (same : before.Twin twin) :
    before.store.redis = twin.store.redis := by
  have redis := congrArg Store.redis same.store
  exact redis

theorem db_eq (same : before.Twin twin) :
    before.store.db.masked = twin.store.db.masked := by
  have databases := congrArg Store.db same.store
  exact databases

/-- A change of Redis alone. -/
theorem withRedis (same : before.Twin twin) (change : Redis → Redis) :
    (before.store.withRedis (change before.store.redis)).masked =
      (twin.store.withRedis (change twin.store.redis)).masked := by
  simp only [Store.masked, Store.withRedis, Store.withDb, same.redis_eq,
    same.db_eq]

theorem reap (same : before.Twin twin) (nowMs : Int) (batchSize : Nat) :
    (before.reap nowMs batchSize).Twin (twin.reap nowMs batchSize) where
  store := same.withRedis fun redis => (redis.reapScript nowMs batchSize).2
  processes target := by
    have alike := same.processes target
    simp only [State.reap, same.redis_eq]
    generalize before.processes target = mine,
      twin.processes target = other at alike ⊢
    cases alike with
    | none => exact .none
    | some alike =>
        exact .some ⟨alike.role, congrArg (Claim.reaped _) alike.claim,
          alike.quit, alike.severed, alike.status⟩
  history := same.history

/-- Webhooks that differ in their secrets are registered in both states. -/
theorem registered (same : before.Twin twin) {row another : WebhookRow}
    (rows : row.masked = another.masked)
    (unused : row.id ∉ before.store.db.issued) :
    ∃ next, step deployment twin (.registerWebhook another) = some next ∧
      ({ before with
          store := before.store.withDb
            (before.store.db.insertWebhook row) } : State).Twin next := by
  have issued : before.store.db.issued = twin.store.db.issued := by
    have issued := congrArg Postgres.issued same.db_eq
    exact issued
  have ids : row.id = another.id := by
    have ids := congrArg WebhookRow.id rows
    exact ids
  rw [ids, issued] at unused
  refine ⟨_, if_neg unused, same.withStore ?_⟩
  simp only [Store.masked, Store.withDb, Postgres.insertWebhook_masked,
    same.redis_eq, same.db_eq, rows]

theorem deleted (same : before.Twin twin) (id : WebhookId) :
    ({ before with
        store := before.store.withDb
          (before.store.db.deleteWebhook id) } : State).Twin
      { twin with
        store := twin.store.withDb (twin.store.db.deleteWebhook id) } := by
  refine same.withStore ?_
  simp only [Store.masked, Store.withDb, Postgres.deleteWebhook_masked,
    same.redis_eq, same.db_eq]

/-- A call fails in both states. -/
theorem failed (same : before.Twin twin) {failure : AppError}
    {process : Process} {call : Call} {next : call.Reply → Async Result}
    {rescue : AppError → Async Result}
    (found : before.processes pid = some process)
    (running : process.status = .running (.call call next rescue))
    (taken : step deployment before (.fail pid failure) = some after) :
    ∃ later, step deployment twin (.fail pid failure) = some later ∧
      after.Twin later := by
  obtain ⟨another, foundToo, alike⟩ := same.found found
  have programs := alike.status
  rw [running] at programs
  generalize runningToo : another.status = status at programs
  simp only [step, found, running] at taken
  split at taken
  next onStore =>
    cases taken
    cases programs with
    | running twins =>
        cases twins with
        | call asked _ failed =>
            have onStoreToo := asked.onStore.symm.trans onStore
            refine ⟨_, by
              simp only [step, foundToo, runningToo, onStoreToo, if_true]
              rfl, same.setProcess ?_⟩
            rw [Process.failed, Process.failed, ← alike.claim]
            exact alike.proceed (failed failure) _
  · cases taken

theorem crashed (same : before.Twin twin) {process : Process}
    (found : before.processes pid = some process) (live : process.live) :
    ∃ next, step deployment twin (.crash pid) = some next ∧
      (before.setProcess pid process.crash).Twin next := by
  obtain ⟨another, foundToo, alike⟩ := same.found found
  obtain ⟨program, running⟩ := live
  have programs := alike.status
  rw [running] at programs
  generalize runningToo : another.status = status at programs
  cases programs with
  | running twins =>
      refine ⟨_, by
        simp only [step, foundToo, runningToo]
        rfl, same.setProcess ?_⟩
      exact ⟨alike.role, rfl, alike.quit, alike.severed, .crashed⟩

theorem shutdown (same : before.Twin twin) {process : Process}
    (found : before.processes pid = some process) :
    ∃ next, step deployment twin (.shutdown pid) = some next ∧
      (before.setProcess pid process.shutdown).Twin next := by
  obtain ⟨another, foundToo, alike⟩ := same.found found
  refine ⟨_, by
    simp only [step, foundToo]
    rfl, same.setProcess ?_⟩
  unfold Process.shutdown
  rw [alike.quit]
  split
  · exact alike
  · refine ⟨alike.role, alike.claim, rfl, ?_, alike.status⟩
    simp only [alike.claim]

/-- Two states that look the same do so after a step and one that looks the
same. -/
theorem follows (same : before.Twin twin)
    (looks : action.masked = other.masked)
    (taken : step deployment before action = some after) :
    ∃ next, step deployment twin other = some next ∧ after.Twin next := by
  rcases Action.of_masked_eq looks with rfl | ⟨row, another, rfl, rfl, rows⟩
  · cases steps_of_step taken with
    | @start pid role unused =>
        refine ⟨twin.setProcess pid (.spawn deployment role), by
          simp only [step, same.unused unused], same.setProcess ?_⟩
        exact Process.Twin.proceed ⟨rfl, rfl, rfl, rfl,
          .running (main_twins deployment role)⟩ (main_twins deployment role) _
    | performed found running connected resumes =>
        exact same.performed found running connected resumes
    | failed found running => exact same.failed found running taken
    | crashed found live => exact same.crashed found live
    | shutdown found => exact same.shutdown found
    | @promoted nowMs batchSize =>
        exact ⟨_, rfl, same.withStore (same.withRedis fun redis =>
          (redis.promoteScript nowMs batchSize).2)⟩
    | reaped => exact ⟨_, rfl, same.reap _ _⟩
    | @ticked ms =>
        exact ⟨_, rfl, same.withStore (same.withRedis fun redis =>
          { redis with clock := redis.clock + ms })⟩
    | registered unused => exact same.registered rfl unused
    | deleted => exact ⟨_, rfl, same.deleted _⟩
  · simp only [step] at taken
    split at taken
    · cases taken
    next unused =>
      cases taken
      exact same.registered rows unused

end State.Twin

theorem State.Twin.initial : State.initial.Twin State.initial where
  store := rfl
  processes _ := .none
  history := rfl

/-- In every run the secrets of the webhooks could have been any others: the
same actions are then possible, and the stores, the calls and answers so far,
and whatever the processes wait for and have returned are the same, but for the
secrets themselves and the signatures of the requests. -/
theorem secrets_only_sign {actions others : List Action} {after : State}
    (looks : actions.map Action.masked = others.map Action.masked)
    (runs : run (step deployment) State.initial actions = some after) :
    ∃ other, run (step deployment) State.initial others = some other ∧
      after.view = other.view := by
  obtain ⟨other, completes, twins⟩ :=
    run_lockstep State.Twin.follows looks State.Twin.initial runs
  exact ⟨other, completes, twins.view_eq⟩

/-- A job is delivered for a webhook with this secret. -/
def deliveredWith (secret : String) : List Action :=
  [.registerWebhook { exampleWebhook with secret := secret },
    .start 0 (.enqueue exampleEvent), .call 0 {}, .call 0 { uuid := 2 }] ++
      calls 0 2 ++ deliverOnce 1 200 5

def keyed : Deployment where
  hmacSha256 := fun secret text => secret ++ "/" ++ text

theorem secrets_only_sign_deliveredWith :
    ∃ after other,
      run (step keyed) State.initial (deliveredWith "s3cret") = some after ∧
        run (step keyed) State.initial (deliveredWith "0ther") = some other ∧
          after.view = other.view ∧
            after.history.filterMap Event.request? ≠
              other.history.filterMap Event.request? := by
  have looks : (deliveredWith "s3cret").map Action.masked =
      (deliveredWith "0ther").map Action.masked := by
    simp [deliveredWith, Action.masked, WebhookRow.masked, mask]
  have evaluated : (run (step keyed) State.initial
      (deliveredWith "s3cret")).map (fun after => decide
        (after.history.filterMap Event.request? ≠
          ((run (step keyed) State.initial (deliveredWith "0ther")).map
            fun other => other.history.filterMap Event.request?).getD [])) =
              some true := by
    decide +kernel
  obtain ⟨after, runs, told⟩ := Option.map_eq_some_iff.mp evaluated
  obtain ⟨other, runsToo, same⟩ := secrets_only_sign looks runs
  have differ := of_decide_eq_true told
  rw [runsToo] at differ
  exact ⟨after, other, runs, runsToo, same, differ⟩

end WebhookDelivery
