import WebhookDelivery.QueueInvariant

/-!
# Replays that are not interrupted

A replay holds a job between `RPOP` and `LPUSH`.  Unless it crashes or one of
its calls fails there, it goes on until the job is on `ready` again or has
turned out to have no row.
-/

namespace WebhookDelivery

open Concurrency Program Discipline

def Claim.replays : Claim → Bool
  | .replaying _ => true
  | _ => false

/-- A running replay holds the job. -/
def State.Replaying (state : State) (jobId : JobId) : Prop :=
  ∃ pid, state.claim pid = .replaying jobId

/-- A replay crashes or fails while it holds a job, or loses the reply to its
`RPOP`. -/
def BreaksReplay (state : State) : Action → Prop
  | .crash pid => (state.claim pid).replays
  | .fail pid _ | .failLate pid _ _ =>
      (state.claim pid).replays ∨ state.pending? pid = some .popDlq
  | _ => False

instance (state : State) : DecidablePred (BreaksReplay state) :=
  fun action => by
    induction action using Action.casesOn <;> unfold BreaksReplay <;> infer_instance

/-- A process sees its claim, and no call on a replayed job fails. -/
abbrev replayDiscipline : Discipline Call Call.Reply AppError where
  View := Claim
  Rely := Claim.Overruled
  rely_refl := queueDiscipline.rely_refl
  rely_trans := queueDiscipline.rely_trans
  Allowed _ _ := True
  Fallible claim call := ¬(claim.replays ∨ call = .popDlq)
  Effect claim call outcome after :=
    after = claim.after call outcome ∧ call.Answers outcome
  lost := Claim.lost

namespace ReplayDiscipline

variable {Value Next : Type} {program : Async Value} {claim : Claim}

/-- Holding no job of a replay. -/
abbrev Free (claim : Claim) (_ : Except AppError Value) : Prop :=
  claim.replays = false

theorem free_rely {now : Claim} (free : claim.replays = false)
    (overruled : claim.Overruled now) : now.replays = false := by
  rcases overruled with rfl | ⟨jobId, rfl, rfl⟩
  · exact free
  · rfl

theorem free_lost (free : claim.replays = false) :
    claim.lost.replays = false := by
  cases claim <;> first | rfl | exact free

theorem free_after {call : Call} (free : claim.replays = false)
    (other : call ≠ .popDlq) (outcome : Except AppError call.Reply) :
    (claim.after call outcome).replays = false := by
  unfold Claim.after
  split <;> first | rfl | exact free | exact absurd rfl other

/-- A program that never takes a job from the dead-letter queue. -/
theorem follows_within (within : program.Within (· ≠ .popDlq))
    (free : claim.replays = false) :
    replayDiscipline.Follows Free program claim := by
  refine Follows.of_within (fun claim => claim.replays = false) within
    free_rely (fun _ _ => trivial) free_lost ?_ (fun _ _ free => free) free
  rintro view call outcome after free other ⟨rfl, _⟩
  exact free_after free other outcome

/-- One call of a replay, which cannot fail. -/
theorem follows_await {call : Call} {rest : call.Reply → Async Next}
    (unleased : ∀ jobId, claim ≠ .reserved jobId)
    (secured : claim.replays ∨ call = .popDlq)
    (raises : ∀ failure, ¬call.Answers (.error failure))
    (replied : ∀ reply, replayDiscipline.Follows Free (rest reply)
      (claim.after call (.ok reply))) :
    replayDiscipline.Follows Free ((await call).bind rest) claim := by
  rintro _ (rfl | ⟨jobId, same, _⟩)
  · refine ⟨trivial, fun fallible => absurd secured fallible, ?_⟩
    rintro outcome after ⟨rfl, answers⟩
    refine ⟨fun fallible => absurd secured fallible, ?_, ?_⟩
    · rintro failure rfl
      exact absurd answers (raises failure)
    · rintro reply rfl
      exact replied reply
  · exact absurd same (unleased jobId)

theorem replayLoop_follows (limit : Nat) (replayed : List JobId) :
    replayDiscipline.Follows Free (JobService.replayLoop limit replayed)
      .none := by
  have ends : ∀ result : List JobId,
      replayDiscipline.Follows Free (.pure result) .none :=
    fun _ _ overruled => free_rely rfl overruled
  induction limit generalizing replayed with
  | zero => exact ends replayed
  | succ limit ih =>
      refine follows_await (by simp) (.inr rfl) (fun _ => id) ?_
      rintro (_ | jobId)
      · exact ends replayed
      refine follows_await (by simp [Claim.after]) (.inl rfl)
        (fun _ => id) ?_
      rintro (_ | job)
      · exact ih replayed
      refine follows_await (by simp [Claim.after]) (.inl rfl)
        (fun _ => id) ?_
      exact fun _ => ih _

/-- Every process ends without a job of a replay. -/
theorem main_follows (deployment : Deployment) (role : Role) :
    replayDiscipline.Follows Free (role.main deployment) .none := by
  cases role with
  | enqueue input =>
      refine follows_within (Within.bind ((enqueue_within input).mono ?_)
        fun _ => trivial) rfl
      rintro call enqueues rfl
      cases enqueues
  | replay limit =>
      refine Follows.bind ((replayLoop_follows limit []).mono ?_)
      rintro claim (failure | jobIds) free
      · exact free
      · exact fun _ overruled => free_rely free overruled
  | worker =>
      refine follows_within (Within.bind ((consume_within deployment).mono ?_)
        fun _ => trivial) rfl
      rintro call works rfl
      cases works

end ReplayDiscipline

/-! ## The jobs of running replays -/

variable {deployment : Deployment} {before after : State} {action : Action}

/-- Every process keeps to the replay discipline. -/
abbrev State.ReplaysOn (state : State) : Prop :=
  state.Disciplined replayDiscipline (fun _ claim _ => claim)
    ReplayDiscipline.Free

theorem replayDiscipline_respects (unbroken : ¬BreaksReplay before action)
    (taken : step deployment before action = some after) :
    Respects deployment replayDiscipline (fun _ claim _ => claim) before action
      after where
  performed _ _ _ _ := ⟨rfl, exec_answers _ _ _ _⟩
  unanswered pending same := by
    subst same
    refine ⟨?_, replayDiscipline.rely_refl _⟩
    rintro (replays | rfl)
    · exact unbroken (.inl replays)
    · exact unbroken (.inr pending)
  failed pending same := by
    subst same
    refine ⟨?_, replayDiscipline.rely_refl _⟩
    rintro (replays | rfl)
    · exact unbroken (.inl replays)
    · exact unbroken (.inr pending)
  others other := overruled_of_other taken other

theorem State.ReplaysOn.initial : State.initial.ReplaysOn :=
  fun _ _ _ found => by cases found

theorem State.ReplaysOn.step (replaysOn : before.ReplaysOn)
    (unbroken : ¬BreaksReplay before action)
    (taken : WebhookDelivery.step deployment before action = some after) :
    after.ReplaysOn :=
  State.Disciplined.step replaysOn taken
    (fun _ _ _ _ => ReplayDiscipline.main_follows deployment _)
    (replayDiscipline_respects unbroken taken)

/-- A process that goes on with a job of a replay still has it. -/
private theorem claim_of_proceed {process : Process}
    {program : Async Result} {claim : Claim}
    (follows : replayDiscipline.Follows ReplayDiscipline.Free program claim)
    (replays : claim.replays) :
    (process.proceed deployment program claim).claim = claim := by
  cases program with
  | pure value =>
      have free := follows claim (replayDiscipline.rely_refl _)
      rw [ReplayDiscipline.Free, replays] at free
      cases free
  | throw failure =>
      have free := follows claim (replayDiscipline.rely_refl _)
      rw [ReplayDiscipline.Free, replays] at free
      cases free
  | call call next rescue => rfl

/-- A call after which its process holds a job of a replay does not end the
process. -/
theorem claim_of_performed (replaysOn : before.ReplaysOn)
    (unbroken : ¬BreaksReplay before action) {pid : Pid} {choice : Choice}
    {process : Process} {call : Call} {next : call.Reply → Async Result}
    {rescue : AppError → Async Result}
    {resumed : Except AppError call.Reply → Process}
    (found : before.processes pid = some process)
    (running : process.status = .running (.call call next rescue))
    (resumes : Resumes deployment pid choice process next rescue action
      resumed)
    (replays : ((before.claim pid).after call
      (exec deployment choice call before.store).1).replays) :
    (before.perform deployment pid choice call resumed).claim pid =
      (before.claim pid).after call
        (exec deployment choice call before.store).1 := by
  rw [State.claim_of_found (before.perform_self _ _ _ _ _)]
  have claimed := State.claim_of_found found
  cases resumes with
  | replied =>
      obtain ⟨_, _, completed⟩ := replaysOn.follows found running
      obtain ⟨_, failed, replied⟩ := completed _ _
        ⟨rfl, exec_answers deployment choice call before.store⟩
      rw [Process.replied, ← claimed]
      refine claim_of_proceed ?_ replays
      cases outcome : (exec deployment choice call before.store).1 with
      | ok reply =>
          rw [outcome] at replied
          exact replied reply rfl
      | error failure =>
          rw [outcome] at failed
          exact failed failure rfl
  | unanswered onStore =>
      -- The reply of a replay's call is not lost.
      have free : (before.claim pid).replays = false := by
        by_contra busy
        exact unbroken (.inl (Bool.eq_true_of_not_eq_false busy))
      have other : call ≠ .popDlq := by
        rintro rfl
        exact unbroken (.inr (State.pending?_of_running found running))
      rw [ReplayDiscipline.free_after free other] at replays
      cases replays

/-- A job of a replay stays with it until the replay pushes it or finds it
without a row. -/
theorem replaying_of_step (queue : QueueInvariant before)
    (replaysOn : before.ReplaysOn) (unbroken : ¬BreaksReplay before action)
    (taken : step deployment before action = some after) {pid : Pid}
    {jobId : JobId} (replaying : before.claim pid = .replaying jobId) :
    after.claim pid = .replaying jobId ∨
      action.performer? = some pid ∧
        (before.pending? pid = some (.push jobId) ∨
          before.pending? pid = some (.resetForReplay jobId) ∧
            before.store.db.jobs jobId = none) := by
  by_cases acts : action.actor? = some pid
  swap
  · rcases claim_of_other taken acts with same | ⟨_, _, _, reaped⟩
    · exact .inl (same.trans replaying)
    · exact .inl (by rw [reaped, replaying]; rfl)
  have busy : (before.claim pid).replays := by rw [replaying]; rfl
  cases steps_of_step taken with
  | start unused =>
      cases acts
      rw [State.claim_of_unused unused] at replaying
      cases replaying
  | crashed =>
      cases acts
      exact absurd busy unbroken
  | failed =>
      cases acts
      exact absurd (.inl busy) unbroken
  | @performed _ actor choice process call next rescue resumed found running
      connected resumes =>
      rw [resumes.performer?.2] at acts
      cases acts
      have permits := queue.permits
        (State.pending?_of_running found running)
      have pending := State.pending?_of_running found running
      have stays : (before.claim pid).after call
          (exec deployment choice call before.store).1 = .replaying jobId →
          (before.perform deployment pid choice call resumed).claim pid =
            .replaying jobId := by
        intro same
        rw [claim_of_performed replaysOn unbroken found running resumes
          (by rw [same]; rfl), same]
      rw [replaying] at permits stays
      cases call with
      | push id =>
          rcases permits with same | same <;> cases same
          exact .inr ⟨resumes.performer?.1, .inl pending⟩
      | resetForReplay id =>
          cases permits
          cases row : before.store.db.jobs jobId with
          | none => exact .inr ⟨resumes.performer?.1, .inr ⟨pending, rfl⟩⟩
          | some old =>
              refine .inl (stays ?_)
              simp only [exec, Postgres.resetForReplay, row]
              rfl
      | brpoplpush | popDlq | insertJob input | pushDelayed id runAtMs
      | zaddLease id expiry => cases permits
      | ack id | retryLater id runAtMs | deadLetter id =>
          rcases permits with same | same <;> cases same
      | _ => exact .inl (stays rfl)
  | shutdown | promoted | reaped | ticked | registered | deleted => cases acts

end WebhookDelivery
