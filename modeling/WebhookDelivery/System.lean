import WebhookDelivery.JobService
import WebhookDelivery.Library.Run

/-!
# The system of processes

API calls, workers and schedulers share the two stores.  A process is
suspended at one call at a time; every action of the system lets one process
complete that call, makes the call fail, stops a process, or lets a scheduler
run one of its two scripts.
-/

namespace WebhookDelivery

open Concurrency

abbrev Pid := Nat

/-- What a process was started to do: one `POST /events`, one
`POST /queue/dlq/replay`, or the consume loop of a worker. -/
inductive Role
  | enqueue (input : EnqueueInput)
  | replay (limit : Nat)
  | worker
  deriving DecidableEq

inductive Result
  | enqueued (job : Job)
  | replayed (jobIds : List JobId)
  | consumed

def Role.main (deployment : Deployment) : Role → Async Result
  | .enqueue input => Result.enqueued <$> JobService.enqueue input
  | .replay limit => Result.replayed <$> JobService.replay limit
  | .worker => (fun _ => Result.consumed) <$> Worker.consume deployment

inductive Status
  | running (program : Async Result)
  | returned (outcome : Except AppError Result)
  | crashed

/-- The queue claim a process has: history of the calls it has completed.
`reserved` becomes `superseded` when the reaper takes the job from a process
that is still running. -/
inductive Claim
  | none
  | inserted (jobId : JobId)
  | popped (jobId : JobId)
  | reserved (jobId : JobId)
  | superseded (jobId : JobId)
  | replaying (jobId : JobId)
  deriving DecidableEq

namespace Claim

/-- The claim after a call that took effect. -/
def after (claim : Claim) :
    (call : Call) → Except AppError call.Reply → Claim
  | .brpoplpush, .ok (some jobId) => .popped jobId
  | .zaddLease jobId _, .ok _ => .reserved jobId
  | .ack _, .ok _ => .none
  | .retryLater _ _, .ok _ => .none
  | .deadLetter _, .ok _ => .none
  | .insertJob _, .ok job => .inserted job.id
  | .push _, .ok _ => .none
  | .pushDelayed _ _, .ok _ => .none
  | .popDlq, .ok (some jobId) => .replaying jobId
  | .resetForReplay _, .ok Option.none => .none
  | _, _ => claim

/-- The claim of a process that has lost the reply to a call: `reserve` does
not know or forgets the id it popped, any other claim stands. -/
def lost : Claim → Claim
  | .popped _ => .none
  | claim => claim

/-- The claim once the reaper has returned `jobIds` to `ready`. -/
def reaped (jobIds : List JobId) : Claim → Claim
  | .reserved jobId =>
      if jobId ∈ jobIds then .superseded jobId else .reserved jobId
  | claim => claim

/-- The process is between the two commands of `reserve`. -/
def awaitsLease : Claim → Bool
  | .popped _ => true
  | _ => false

/-- The job a claim is about. -/
def job? : Claim → Option JobId
  | .none => Option.none
  | .inserted jobId | .popped jobId | .reserved jobId | .superseded jobId
  | .replaying jobId => some jobId

/-- The job a claim entitles its process to act on. -/
def holds? : Claim → Option JobId
  | .superseded _ => Option.none
  | claim => claim.job?

end Claim

structure Process where
  role : Role
  status : Status
  claim : Claim
  /-- The process has received `SIGTERM` and starts no new iteration. -/
  quit : Bool
  /-- `QUIT` went out on the consuming connection before the `ZADD` of the
  present iteration. -/
  severed : Bool

/-- A call that took effect, with what the server answered. -/
structure Event where
  pid : Pid
  call : Call
  outcome : Except AppError call.Reply

structure State where
  store : Store
  processes : Pid → Option Process
  /-- The calls that took effect, latest first. -/
  history : List Event

inductive Action
  | start (pid : Pid) (role : Role)
  | call (pid : Pid) (choice : Choice)
  /-- The pending call fails without effect. -/
  | fail (pid : Pid) (failure : AppError)
  /-- The pending call takes effect, but its reply is lost. -/
  | failLate (pid : Pid) (choice : Choice) (failure : AppError)
  | crash (pid : Pid)
  | shutdown (pid : Pid)
  | promote (nowMs : Int) (batchSize : Nat)
  | reap (nowMs : Int) (batchSize : Nat)
  | tick (ms : Nat)
  | registerWebhook (row : WebhookRow)
  | deleteWebhook (id : WebhookId)

namespace Process

/-- The call a running process is suspended at. -/
def pending? (process : Process) : Option Call :=
  match process.status with
  | .running program => program.request?
  | _ => none

/-- A worker that has finished an iteration starts the next one unless it is
shutting down; an API call is over. -/
def finish (deployment : Deployment) (process : Process)
    (outcome : Except AppError Result) : Process :=
  if process.role = .worker ∧ process.quit = false then
    { process with
      status := .running (Role.main deployment .worker), claim := .none }
  else
    { process with status := .returned outcome, claim := .none }

def proceed (deployment : Deployment) (process : Process)
    (program : Async Result) (claim : Claim) : Process :=
  match program with
  | .call _ _ _ => { process with status := .running program, claim := claim }
  | .pure result => process.finish deployment (.ok result)
  | .throw failure => process.finish deployment (.error failure)

/-- The process once its call is answered. -/
def replied (deployment : Deployment) (process : Process) {call : Call}
    (next : call.Reply → Async Result) (rescue : AppError → Async Result)
    (outcome : Except AppError call.Reply) : Process :=
  process.proceed deployment (Program.resume next rescue outcome)
    (process.claim.after call outcome)

/-- The process once its call has taken effect without an answer. -/
def unanswered (deployment : Deployment) (process : Process) {call : Call}
    (program : Async Result) (outcome : Except AppError call.Reply) :
    Process :=
  process.proceed deployment program (process.claim.after call outcome).lost

/-- The process once its call has failed without effect. -/
def failed (deployment : Deployment) (process : Process)
    (program : Async Result) : Process :=
  process.proceed deployment program process.claim.lost

/-- A new process, run up to its first call. -/
def spawn (deployment : Deployment) (role : Role) : Process :=
  let process : Process :=
    { role := role
      status := .running (role.main deployment)
      claim := .none
      quit := false
      severed := false }
  process.proceed deployment (role.main deployment) .none

def crash (process : Process) : Process :=
  { process with status := .crashed, claim := .none }

def live (process : Process) : Prop :=
  ∃ program, process.status = .running program

/-- The first `SIGTERM`.  `reserve` sends its `ZADD` as soon as the popped id
arrives, so the `QUIT` is behind it exactly when the id has arrived. -/
def shutdown (process : Process) : Process :=
  if process.quit then process
  else
    { process with quit := true, severed := !process.claim.awaitsLease }

/-- A `ZADD` sent after the `QUIT` is never executed. -/
def connected (process : Process) (call : Call) : Bool :=
  match call with
  | .zaddLease _ _ => !process.severed
  | _ => true

end Process

namespace State

def initial : State where
  store := .empty
  processes := fun _ => none
  history := []

def setProcess (state : State) (pid : Pid) (process : Process) : State :=
  { state with
    processes := Function.update state.processes pid (some process) }

/-- The call a process is suspended at. -/
def pending? (state : State) (pid : Pid) : Option Call :=
  (state.processes pid).bind Process.pending?

/-- The claim of a process; none for a pid not in use. -/
def claim (state : State) (pid : Pid) : Claim :=
  ((state.processes pid).map Process.claim).getD .none

/-- The reaper's script, and the history of claims it overrules. -/
def reap (state : State) (nowMs : Int) (batchSize : Nat) : State :=
  let result := state.store.redis.reapScript nowMs batchSize
  { state with
    store := state.store.withRedis result.2
    processes := fun pid => (state.processes pid).map fun process =>
      { process with claim := process.claim.reaped result.1 } }

end State

section Step

variable (deployment : Deployment)

/-- The pending call of a process takes effect, and its outcome decides how
the process goes on. -/
def State.perform (state : State) (pid : Pid) (choice : Choice) (call : Call)
    (resumed : Except AppError call.Reply → Process) : State :=
  let result := exec deployment choice call state.store
  { store := result.2
    processes :=
      Function.update state.processes pid (some (resumed result.1))
    history := ⟨pid, call, result.1⟩ :: state.history }

/-- The step function of the system; `none` when the action is not enabled. -/
def step (state : State) : Action → Option State
  | .start pid role =>
      match state.processes pid with
      | some _ => none
      | none => some (state.setProcess pid (Process.spawn deployment role))
  | .call pid choice =>
      match state.processes pid with
      | none => none
      | some process =>
          match process.status with
          | .running (.call call next rescue) =>
              if process.connected call then
                some (state.perform deployment pid choice call
                  (process.replied deployment next rescue))
              else none
          | _ => none
  | .fail pid failure =>
      match state.processes pid with
      | none => none
      | some process =>
          match process.status with
          | .running (.call call _ rescue) =>
              if call.onStore then
                some (state.setProcess pid
                  (process.failed deployment (rescue failure)))
              else none
          | _ => none
  | .failLate pid choice failure =>
      match state.processes pid with
      | none => none
      | some process =>
          match process.status with
          | .running (.call call _ rescue) =>
              if call.onStore && process.connected call then
                some (state.perform deployment pid choice call
                  (process.unanswered deployment (rescue failure)))
              else none
          | _ => none
  | .crash pid =>
      match state.processes pid with
      | none => none
      | some process =>
          match process.status with
          | .running _ => some (state.setProcess pid process.crash)
          | _ => none
  | .shutdown pid =>
      match state.processes pid with
      | none => none
      | some process => some (state.setProcess pid process.shutdown)
  | .promote nowMs batchSize =>
      some { state with
        store := state.store.withRedis
          (state.store.redis.promoteScript nowMs batchSize).2 }
  | .reap nowMs batchSize => some (state.reap nowMs batchSize)
  | .tick ms =>
      some { state with
        store := state.store.withRedis
          { state.store.redis with clock := state.store.redis.clock + ms } }
  | .registerWebhook row =>
      if row.id ∈ state.store.db.issued then none
      else
        some { state with
          store := state.store.withDb (state.store.db.insertWebhook row) }
  | .deleteWebhook id =>
      some { state with
        store := state.store.withDb (state.store.db.deleteWebhook id) }

end Step

end WebhookDelivery
