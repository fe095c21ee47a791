import WebhookDelivery.Lock
import WebhookDelivery.Library.Run

/-!
# The schedulers

Any number of processes run the loop of `scheduler.ts`, each with a local
variable for the lock it believes to hold.  A command is sent, is executed by
the server and is answered in three steps; anything may happen in between, the
shutdown handler of the same process included.
-/

namespace WebhookDelivery

namespace Leadership

open Concurrency

abbrev SchedulerId := Nat

def lockKey : String := "lock:scheduler"

/-- How long the lock lives unless it is renewed. -/
def lockTtlMs : Int := 5000

/-- The commands a tick awaits. -/
inductive Command
  | acquire (lock : Lock)
  | renew (lock : Lock)
  | promoteDue
  | reapExpired
  deriving DecidableEq

/-- What a scheduler asks of the server. -/
inductive Request
  | tick (command : Command)
  | release (lock : Lock)
  deriving DecidableEq

/-- What the server does with a request, and its reply; the two sweeps act on
the queue, not on the lock. -/
def Request.execute (server : LockServer) : Request → Bool × LockServer
  | .tick (.acquire lock) => server.acquire lock lockTtlMs
  | .tick (.renew lock) => server.renew lock lockTtlMs
  | .tick .promoteDue | .tick .reapExpired => (true, server)
  | .release lock => server.release lock

/-- A command that has been sent, and the reply once it has been executed. -/
structure Sent where
  command : Command
  reply : Option Bool

/-- How far the shutdown handler has come. -/
inductive Closing
  | no
  | releasing (lock : Lock) (reply : Option Bool)
  | quitting

structure Scheduler where
  alive : Bool := true
  running : Bool := true
  shuttingDown : Bool := false
  /-- The module's variable `lock`. -/
  lock : Option Lock := none
  /-- The command `tick` awaits; none while the loop sleeps. -/
  loop : Option Sent := none
  closing : Closing := .no

/-- A request the server has executed. -/
structure Event where
  scheduler : SchedulerId
  request : Request
  reply : Bool
  /-- The server right afterwards. -/
  server : LockServer

structure State where
  server : LockServer
  schedulers : SchedulerId → Scheduler
  /-- The tokens drawn so far, and by whom. -/
  drawn : List (SchedulerId × Token)
  /-- The requests executed so far, latest first. -/
  history : List Event

inductive Action
  /-- A tick begins; `token` is what `randomUUID` returns if it is called. -/
  | tick (scheduler : SchedulerId) (token : Token)
  | execute (scheduler : SchedulerId)
  | reply (scheduler : SchedulerId)
  /-- The command of the tick fails, executed or not. -/
  | fail (scheduler : SchedulerId)
  | signal (scheduler : SchedulerId)
  | executeRelease (scheduler : SchedulerId)
  | replyRelease (scheduler : SchedulerId)
  /-- The process ends: a crash, or the exit of the shutdown handler. -/
  | exit (scheduler : SchedulerId)
  | elapse (ms : Nat)

namespace Scheduler

def gone : Scheduler where
  alive := false
  running := false

def send (scheduler : Scheduler) (command : Command) : Scheduler :=
  { scheduler with loop := some ⟨command, none⟩ }

/-- `tick` from one reply to its next command, or to its end. -/
def replied (scheduler : Scheduler) (command : Command) (reply : Bool) :
    Scheduler :=
  match command with
  | .acquire lock =>
      if reply then { scheduler with lock := some lock }.send .promoteDue
      else { scheduler with lock := none, loop := none }
  | .renew _ =>
      if reply then scheduler.send .promoteDue
      else { scheduler with lock := none, loop := none }
  | .promoteDue => scheduler.send .reapExpired
  | .reapExpired => { scheduler with loop := none }

/-- The shutdown handler up to its first command. -/
def signalled (scheduler : Scheduler) : Scheduler :=
  if scheduler.shuttingDown then scheduler
  else
    { scheduler with
      shuttingDown := true
      running := false
      closing := match scheduler.lock with
        | some lock => .releasing lock none
        | none => .quitting }

end Scheduler

namespace State

def initial : State where
  server := .empty
  schedulers := fun _ => {}
  drawn := []
  history := []

def setScheduler (state : State) (id : SchedulerId) (scheduler : Scheduler) :
    State :=
  { state with
    schedulers := Function.update state.schedulers id scheduler }

/-- The server executes a request. -/
def executed (state : State) (id : SchedulerId) (request : Request)
    (resumed : Bool → Scheduler) : State :=
  let result := request.execute state.server
  { server := result.2
    schedulers := Function.update state.schedulers id (resumed result.1)
    drawn := state.drawn
    history := ⟨id, request, result.1, result.2⟩ :: state.history }

end State

/-- The step function; `none` when the action is not enabled. -/
def step (state : State) : Action → Option State
  | .tick id token =>
      let scheduler := state.schedulers id
      match scheduler.running, scheduler.loop with
      | true, none =>
          match scheduler.lock with
          | some lock =>
              some (state.setScheduler id (scheduler.send (.renew lock)))
          | none =>
              if state.drawn.any fun pair => pair.2 = token then none
              else
                some { state.setScheduler id
                    (scheduler.send (.acquire ⟨lockKey, token⟩)) with
                  drawn := (id, token) :: state.drawn }
      | _, _ => none
  | .execute id =>
      let scheduler := state.schedulers id
      match scheduler.loop with
      | some ⟨command, none⟩ =>
          some (state.executed id (.tick command) fun reply =>
            { scheduler with loop := some ⟨command, some reply⟩ })
      | _ => none
  | .reply id =>
      let scheduler := state.schedulers id
      match scheduler.loop with
      | some ⟨command, some reply⟩ =>
          some (state.setScheduler id (scheduler.replied command reply))
      | _ => none
  | .fail id =>
      let scheduler := state.schedulers id
      match scheduler.loop with
      | some _ =>
          some (state.setScheduler id { scheduler with loop := none })
      | none => none
  | .signal id =>
      if (state.schedulers id).alive then
        some (state.setScheduler id (state.schedulers id).signalled)
      else none
  | .executeRelease id =>
      let scheduler := state.schedulers id
      match scheduler.closing with
      | .releasing lock none =>
          some (state.executed id (.release lock) fun reply =>
            { scheduler with closing := .releasing lock (some reply) })
      | _ => none
  | .replyRelease id =>
      let scheduler := state.schedulers id
      match scheduler.closing with
      | .releasing _ (some _) =>
          some (state.setScheduler id { scheduler with closing := .quitting })
      | _ => none
  | .exit id =>
      if (state.schedulers id).alive then
        some (state.setScheduler id .gone)
      else none
  | .elapse ms => some { state with server := state.server.elapse ms }

end Leadership

end WebhookDelivery
