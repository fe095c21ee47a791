import WebhookDelivery.Library.Simulation
import WebhookDelivery.Fencing
import WebhookDelivery.GivingUp
import WebhookDelivery.TraceInvariant

/-!
# The life of a job id

Commands, scripts and crashes of any number of processes act on the five queue
structures.  Seen from one job they are moves of a small automaton: the cycle
from `ready` through a claim to `delayed`, `dlq` or the end, the ways back that
reaper and replay open, and the edges by which an id gets lost when a reply
does, or when the process that has it gives up.
-/

namespace WebhookDelivery

open Concurrency

/-- Where a job id is in its life. -/
inductive Stage
  | unborn
  /-- The row is there, and the API process has not placed the id yet. -/
  | created (pid : Pid)
  | ready
  /-- In `inflight`, and its worker has not recorded the lease yet. -/
  | claimed (pid : Pid)
  | leased (pid : Pid)
  /-- In `inflight` with the lease of a worker that is gone. -/
  | abandoned
  /-- In `inflight` without a lease, which the reaper never finds. -/
  | stray
  | delayed
  | dead
  /-- Taken from `dlq` by a replay. -/
  | replaying (pid : Pid)
  /-- Nowhere, and nobody has it: finished or lost. -/
  | gone
  deriving DecidableEq

namespace Stage

/-- The process that the next move is up to. -/
def holder? : Stage → Option Pid
  | .created pid | .claimed pid | .leased pid | .replaying pid => some pid
  | _ => none

/-- What is left when the process that has the id gives up. -/
def left : Stage → Stage
  | .created _ | .replaying _ => .gone
  | .claimed _ => .stray
  | .leased _ => .abandoned
  | stage => stage

end Stage

/-- What brings a step about. -/
inductive Cause
  | call (pid : Pid) (call : Call)
  | stop (pid : Pid)
  | promote
  | reap
  | register (id : WebhookId)
  | other

namespace Cause

def actor? : Cause → Option Pid
  | .call pid _ | .stop pid => some pid
  | _ => none

end Cause

/-- The cause of a step taken from a state. -/
def State.cause (state : State) : Action → Cause
  | .call pid _ | .failLate pid _ _ =>
      match state.pending? pid with
      | some call => .call pid call
      | none => .stop pid
  | .fail pid _ | .crash pid => .stop pid
  | .promote _ _ => .promote
  | .reap _ _ => .reap
  | .registerWebhook row => .register row.id
  | _ => .other

/-- The process crashes, its call fails, the reply to it gets lost, or is one that
discourages it. -/
def GivesUp (deployment : Deployment) (state : State) : Action → Pid → Prop
  | .crash actor, pid | .fail actor _, pid | .failLate actor _ _, pid =>
      actor = pid
  | .call actor choice, pid => actor = pid ∧ ∃ call,
      state.pending? pid = some call ∧
        call.discourages (exec deployment choice call state.store).1 = true
  | _, _ => False

/-- The moves in the life of a job id. -/
inductive Move (jobId : JobId) : Cause → Stage → Stage → Prop
  | insert {pid input} :
      Move jobId (.call pid (.insertJob input)) .unborn (.created pid)
  | usedUp : Move jobId (.register jobId) .unborn .gone
  | push {pid} : Move jobId (.call pid (.push jobId)) (.created pid) .ready
  | schedule {pid runAtMs} :
      Move jobId (.call pid (.pushDelayed jobId runAtMs)) (.created pid)
        .delayed
  | claim {pid} : Move jobId (.call pid .brpoplpush) .ready (.claimed pid)
  | lease {pid expiry} :
      Move jobId (.call pid (.zaddLease jobId expiry)) (.claimed pid)
        (.leased pid)
  | ack {pid} : Move jobId (.call pid (.ack jobId)) (.leased pid) .gone
  | retry {pid runAtMs} :
      Move jobId (.call pid (.retryLater jobId runAtMs)) (.leased pid)
        .delayed
  | bury {pid} : Move jobId (.call pid (.deadLetter jobId)) (.leased pid) .dead
  | draw {pid} : Move jobId (.call pid .popDlq) .dead (.replaying pid)
  | requeue {pid} :
      Move jobId (.call pid (.push jobId)) (.replaying pid) .ready
  | promote : Move jobId .promote .delayed .ready
  | reap : Move jobId .reap .abandoned .ready
  | overrule {pid} : Move jobId .reap (.leased pid) .ready

/-- Where a job goes by a call when its process does not hear of it. -/
inductive Unheard (jobId : JobId) : Cause → Stage → Stage → Prop
  | insert {pid input} :
      Unheard jobId (.call pid (.insertJob input)) .unborn .gone
  | claim {pid} : Unheard jobId (.call pid .brpoplpush) .ready .stray
  | lease {pid expiry} :
      Unheard jobId (.call pid (.zaddLease jobId expiry)) (.claimed pid)
        .abandoned
  | draw {pid} : Unheard jobId (.call pid .popDlq) .dead .gone

/-- The call of the action takes effect without an answer. -/
def Action.unanswered : Action → Bool
  | .failLate _ _ _ => true
  | _ => false

/-- The ways in which a step takes a job to another stage. -/
inductive Passage (deployment : Deployment) (jobId : JobId) (state : State)
    (action : Action) : Stage → Stage → Prop
  | moved {stage next} (moves : Move jobId (state.cause action) stage next) :
      Passage deployment jobId state action stage next
  | unheard {stage next} (unanswered : action.unanswered = true)
      (moves : Unheard jobId (state.cause action) stage next) :
      Passage deployment jobId state action stage next
  | left {stage pid} (holds : stage.holder? = some pid)
      (givesUp : GivesUp deployment state action pid) :
      Passage deployment jobId state action stage stage.left

/-- The passages of a job in the steps of the system. -/
def lifecycle (deployment : Deployment) (jobId : JobId)
    (transition : Transition State Action) : Stage → Stage → Prop :=
  Passage deployment jobId transition.before transition.action

/-- The copies of a job at the stage. -/
def Stage.places : Stage → Places
  | .unborn | .created _ | .replaying _ | .gone => ⟨0, 0, 0, 0, 0⟩
  | .ready => ⟨1, 0, 0, 0, 0⟩
  | .claimed _ | .stray => ⟨0, 1, 0, 0, 0⟩
  | .leased _ | .abandoned => ⟨0, 1, 1, 0, 0⟩
  | .delayed => ⟨0, 0, 0, 1, 0⟩
  | .dead => ⟨0, 0, 0, 0, 1⟩

/-- The stage of a job that nobody has. -/
def Places.stage (places : Places) : Stage :=
  if 0 < places.ready then .ready
  else if 0 < places.delayed then .delayed
  else if 0 < places.dlq then .dead
  else if places.inflight = 0 then .gone
  else if places.leases = 0 then .stray
  else .abandoned

/-- The stage of a job that a process has. -/
def Claim.stage (pid : Pid) : Claim → Stage
  | .inserted _ => .created pid
  | .popped _ => .claimed pid
  | .reserved _ => .leased pid
  | .replaying _ => .replaying pid
  | _ => .gone

/-- The job is at the stage. -/
inductive State.At (state : State) (jobId : JobId) : Stage → Prop
  | unborn (fresh : jobId ∉ state.store.db.issued) : state.At jobId .unborn
  | held {pid} (holds : (state.claim pid).holds? = some jobId) :
      state.At jobId ((state.claim pid).stage pid)
  | unheld (known : jobId ∈ state.store.db.issued)
      (nobody : ∀ pid, (state.claim pid).holds? ≠ some jobId) :
      state.At jobId (state.places jobId).stage

/-- The places of the job fit the claims on it. -/
abbrev State.InCustody (state : State) (jobId : JobId) : Prop :=
  Custody jobId (state.places jobId) state.claim
    (jobId ∈ state.store.db.issued)

variable {deployment : Deployment} {before after state : State}
  {action : Action} {jobId : JobId} {stage : Stage}

/-! ## One stage at a time -/

theorem Claim.holder?_stage {claim : Claim} {pid : Pid}
    (holds : claim.holds? = some jobId) :
    (claim.stage pid).holder? = some pid := by
  rcases holds?_cases holds with rfl | rfl | rfl | rfl <;> rfl

/-- A process that gives up leaves the job where it is. -/
theorem Claim.left_stage {claim : Claim} {places : Places} (pid : Pid)
    (holds : claim.holds? = some jobId) (sound : places.Sound)
    (fits : claim.Fits places) : (claim.stage pid).left = places.stage := by
  have once := sound.once
  unfold Places.copies at once
  rcases holds?_cases holds with rfl | rfl | rfl | rfl
  · simp only [Fits, Places.copies] at fits
    simp only [stage, Stage.left, Places.stage]
    rw [if_neg (by omega), if_neg (by omega), if_neg (by omega),
      if_pos (by omega)]
  · obtain ⟨inflight, unleased⟩ := fits
    simp only [stage, Stage.left, Places.stage]
    rw [if_neg (by omega), if_neg (by omega), if_neg (by omega),
      if_neg (by omega), if_pos unleased]
  · obtain ⟨inflight, leased⟩ := fits
    simp only [stage, Stage.left, Places.stage]
    rw [if_neg (by omega), if_neg (by omega), if_neg (by omega),
      if_neg (by omega), if_neg (by omega)]
  · simp only [Fits, Places.copies] at fits
    simp only [stage, Stage.left, Places.stage]
    rw [if_neg (by omega), if_neg (by omega), if_neg (by omega),
      if_pos (by omega)]

/-- A job is at one stage only. -/
theorem State.At.unique
    (custody : state.InCustody jobId) {other : Stage}
    (first : state.At jobId stage) (second : state.At jobId other) :
    stage = other := by
  cases first with
  | unborn fresh =>
      cases second with
      | unborn => rfl
      | held holds => exact absurd (custody.issued_of_claim holds) fresh
      | unheld known => exact absurd known fresh
  | held holds =>
      cases second with
      | unborn fresh => exact absurd (custody.issued_of_claim holds) fresh
      | held holdsToo => rw [custody.exclusive holds holdsToo]
      | unheld _ nobody => exact absurd holds (nobody _)
  | unheld known nobody =>
      cases second with
      | unborn fresh => exact absurd known fresh
      | held holds => exact absurd holds (nobody _)
      | unheld => rfl

/-- The job is at this stage and no other, and its copies are where the stage
says. -/
structure State.Stands (state : State) (jobId : JobId) (stage : Stage) :
    Prop where
  alone : ∀ other, state.At jobId other ↔ other = stage
  placed : state.places jobId = stage.places

theorem Places.eq_of_absent {places : Places} (sound : places.Sound)
    (absent : places.copies = 0) : places = ⟨0, 0, 0, 0, 0⟩ := by
  have leased := sound.leased
  unfold copies at absent
  cases places
  simp only [Places.mk.injEq] at absent leased ⊢
  omega

/-- Nobody has the job. -/
theorem Places.eq_stage {places : Places} (sound : places.Sound) :
    places = places.stage.places := by
  have once := sound.once
  have leased := sound.leased
  unfold copies at once
  cases places
  simp only [stage] at once leased ⊢
  split_ifs <;> simp only [Stage.places, Places.mk.injEq] <;> omega

theorem Claim.Fits.eq_stage {claim : Claim} {places : Places} (pid : Pid)
    (holds : claim.holds? = some jobId) (sound : places.Sound)
    (fits : claim.Fits places) : places = (claim.stage pid).places := by
  have once := sound.once
  unfold Places.copies at once
  rcases holds?_cases holds with rfl | rfl | rfl | rfl
  · exact Places.eq_of_absent sound fits
  · obtain ⟨inflight, unleased⟩ := fits
    cases places
    simp only [stage, Stage.places, Places.mk.injEq] at *
    omega
  · obtain ⟨inflight, leased⟩ := fits
    cases places
    simp only [stage, Stage.places, Places.mk.injEq] at *
    omega
  · exact Places.eq_of_absent sound fits

theorem State.At.stands
    (custody : state.InCustody jobId) (shown : state.At jobId stage) :
    state.Stands jobId stage where
  alone other := by
    refine ⟨fun also => also.unique custody shown, ?_⟩
    rintro rfl
    exact shown
  placed := by
    cases shown with
    | unborn fresh =>
        exact Places.eq_of_absent custody.sound (custody.unissued fresh).1
    | held holds => exact (custody.fits holds).eq_stage _ holds custody.sound
    | unheld => exact Places.eq_stage custody.sound

/-- What the stage of a job says about its places and the claims on it. -/
def Stage.Means (state : State) (jobId : JobId) : Stage → Prop
  | .unborn => jobId ∉ state.store.db.issued
  | .created pid => state.claim pid = .inserted jobId
  | .ready => 0 < (state.places jobId).ready
  | .claimed pid => state.claim pid = .popped jobId
  | .leased pid => state.claim pid = .reserved jobId
  | .abandoned => 0 < (state.places jobId).inflight ∧
      (state.places jobId).leases ≠ 0
  | .stray => 0 < (state.places jobId).inflight ∧
      (state.places jobId).leases = 0
  | .delayed => 0 < (state.places jobId).delayed
  | .dead => 0 < (state.places jobId).dlq
  | .replaying pid => state.claim pid = .replaying jobId
  | .gone => jobId ∈ state.store.db.issued ∧
      (state.places jobId).copies = 0 ∧
        ∀ pid, (state.claim pid).holds? ≠ some jobId

theorem State.At.means (shown : state.At jobId stage) :
    stage.Means state jobId := by
  cases shown with
  | unborn fresh => exact fresh
  | @held pid holds =>
      rcases Claim.holds?_cases holds with same | same | same | same <;>
        (rw [same]; exact same)
  | unheld known nobody =>
      unfold Places.stage
      split
      next ready => exact ready
      next unready =>
        split
        next delayed => exact delayed
        next undelayed =>
          split
          next dead => exact dead
          next undead =>
            split
            next absent =>
              refine ⟨known, ?_, nobody⟩
              unfold Places.copies
              omega
            next present =>
              split
              next unleased => exact ⟨Nat.pos_of_ne_zero present, unleased⟩
              next leased => exact ⟨Nat.pos_of_ne_zero present, leased⟩

/-! ## What one step does to the job -/

/-- The step takes the job to another stage. -/
def Passes (deployment : Deployment) (jobId : JobId) (before : State)
    (action : Action) (stage : Stage) (after : State) : Prop :=
  ∃ next, Passage deployment jobId before action stage next ∧
    after.At jobId next

/-- The step leaves the job at its stage or takes it to another one. -/
def Moves (deployment : Deployment) (jobId : JobId) (before : State)
    (action : Action) (stage : Stage) (after : State) : Prop :=
  after.At jobId stage ∨ Passes deployment jobId before action stage after

/-- A job in `ready`, `delayed` or `dlq` is at that stage. -/
theorem State.at_of_waiting
    (custody : state.InCustody jobId)
    (waiting : 0 < (state.places jobId).ready + (state.places jobId).delayed +
      (state.places jobId).dlq) :
    state.At jobId (state.places jobId).stage := by
  refine .unheld (custody.issued_of_copies ?_)
    (custody.unheld_of_waiting waiting)
  unfold Places.copies
  omega

/-- A step that does not move the job: it goes on as it is, unless the process
that has it gives up. -/
theorem moves_of_unmoved
    (custody : before.InCustody jobId)
    (same : after.places jobId = before.places jobId)
    (issued : jobId ∈ after.store.db.issued ↔
      jobId ∈ before.store.db.issued)
    (kept : ∀ pid, after.claim pid = before.claim pid ∨
      (after.claim pid).holds? ≠ some jobId ∧
        ((before.claim pid).holds? = some jobId →
          GivesUp deployment before action pid))
    (shown : before.At jobId stage) :
    Moves deployment jobId before action stage after := by
  have nobody : (∀ pid, (before.claim pid).holds? = some jobId →
      (after.claim pid).holds? ≠ some jobId) →
        ∀ pid, (after.claim pid).holds? ≠ some jobId := by
    intro drops pid holds
    rcases kept pid with claim | ⟨dropped, _⟩
    · exact drops pid (claim ▸ holds) holds
    · exact dropped holds
  cases shown with
  | unborn fresh => exact .inl (.unborn fun known => fresh (issued.mp known))
  | @held pid holds =>
      rcases kept pid with claim | ⟨dropped, givesUp⟩
      · exact .inl (claim ▸ .held (claim ▸ holds))
      · refine .inr ⟨_, .left (Claim.holder?_stage holds) (givesUp holds), ?_⟩
        rw [Claim.left_stage pid holds custody.sound (custody.fits holds),
          ← same]
        refine .unheld (issued.mpr (custody.issued_of_claim holds))
          (nobody fun other had => ?_)
        rw [custody.exclusive had holds]
        exact dropped
  | unheld known none =>
      left
      rw [← same]
      exact .unheld (issued.mpr known)
        (nobody fun pid holds => absurd holds (none pid))

/-- A process ends its claim, or goes on with it. -/
theorem moves_of_dropped {pid : Pid}
    (custody : before.InCustody jobId)
    (same : after.places jobId = before.places jobId)
    (issued : jobId ∈ after.store.db.issued ↔
      jobId ∈ before.store.db.issued)
    (givesUp : (before.claim pid).holds? = some jobId →
      GivesUp deployment before action pid)
    (others : ∀ other, other ≠ pid → after.claim other = before.claim other)
    (own : after.claim pid = before.claim pid ∨ after.claim pid = .none)
    (shown : before.At jobId stage) :
    Moves deployment jobId before action stage after := by
  refine moves_of_unmoved custody same issued (fun other => ?_) shown
  by_cases actor : other = pid
  · subst actor
    refine own.imp_right fun none => ?_
    rw [none]
    exact ⟨by simp [Claim.holds?, Claim.job?], givesUp⟩
  · exact .inl (others other actor)

/-- Only the call that inserts a job uses up its id. -/
theorem issued_of_target (deployment : Deployment) (choice : Choice)
    {call : Call} {store : Store}
    (unrelated :
      call.target? (exec deployment choice call store).1 ≠ some jobId) :
    jobId ∈ (exec deployment choice call store).2.db.issued ↔
      jobId ∈ store.db.issued := by
  refine ⟨fun known => ?_, exec_issued deployment choice call store⟩
  cases call with
  | insertJob input =>
      simp only [exec] at known unrelated
      rcases store.db.insertJob_cases deployment.jsonb deployment.maxAttempts
        choice.uuid choice.now input with
        ⟨failure, raised⟩ | ⟨_, _, _, _, done⟩
      · rwa [raised] at known
      · rw [done] at known unrelated
        rcases List.mem_cons.mp known with rfl | earlier
        · exact absurd rfl unrelated
        · exact earlier
  | updateState update =>
      simp only [exec] at known
      rcases store.db.updateState_cases choice.now update with
        ⟨_, done⟩ | ⟨row, _, ⟨failure, done⟩ | ⟨_, done⟩⟩ <;>
        (rw [done] at known; exact known)
  | resetForReplay id =>
      simp only [exec] at known
      rcases store.db.resetForReplay_cases choice.now id with
        ⟨_, done⟩ | ⟨row, _, done⟩ <;> (rw [done] at known; exact known)
  | insertAttempt record =>
      simp only [exec, Postgres.insertAttempt] at known
      split at known
      · exact known
      · split at known
        · exact known
        · split at known <;> exact known
  | _ => exact known

section Calls

variable {pid : Pid} {choice : Choice} {call : Call} {places : Places}

theorem Places.stage_of_ready (waiting : 0 < places.ready) :
    places.stage = .ready :=
  if_pos waiting

theorem Places.stage_of_delayed (sound : places.Sound)
    (waiting : 0 < places.delayed) : places.stage = .delayed := by
  have once := sound.once
  unfold copies at once
  rw [stage, if_neg (by omega), if_pos waiting]

theorem Places.stage_of_dlq (sound : places.Sound) (waiting : 0 < places.dlq) :
    places.stage = .dead := by
  have once := sound.once
  unfold copies at once
  rw [stage, if_neg (by omega), if_neg (by omega), if_pos waiting]

theorem Places.stage_of_absent (absent : places.copies = 0) :
    places.stage = .gone := by
  unfold copies at absent
  rw [stage, if_neg (by omega), if_neg (by omega), if_neg (by omega),
    if_pos (by omega)]

theorem Places.stage_of_inflight (sound : places.Sound)
    (present : 0 < places.inflight) :
    places.stage = if places.leases = 0 then .stray else .abandoned := by
  have once := sound.once
  unfold copies at once
  rw [stage, if_neg (by omega), if_neg (by omega), if_neg (by omega),
    if_neg (by omega)]

/-- Nobody has the job when its process has given it up. -/
theorem nobody_of_none
    (alone : ∀ other, other ≠ pid → (before.claim other).holds? ≠ some jobId)
    (others : ∀ other, other ≠ pid → after.claim other = before.claim other)
    (own : after.claim pid = .none) :
    ∀ other, (after.claim other).holds? ≠ some jobId := by
  intro other holds
  by_cases same : other = pid
  · subst same
    rw [own] at holds
    cases holds
  · rw [others other same] at holds
    exact alone other same holds

/-- What has become of the claim of a process that has made a call: it may be
gone when no answer came, or one that discourages. -/
def Resumed (action : Action) (discouraged : Bool) (claim now : Claim) :
    Prop :=
  now = claim ∨ now = .none ∧ (claim.holds? = none ∨
    action.unanswered = true ∨ discouraged = true)

/-- A process that goes on with a new claim on the job, or has not heard of
it. -/
theorem passes_to_claim {claim : Claim}
    (cause : before.cause action = .call pid call)
    (others : ∀ other, other ≠ pid → after.claim other = before.claim other)
    (alone : ∀ other, other ≠ pid → (before.claim other).holds? ≠ some jobId)
    (known : jobId ∈ after.store.db.issued)
    (own : Resumed action false claim (after.claim pid))
    (holds : claim.holds? = some jobId)
    (moves : Move jobId (.call pid call) stage (claim.stage pid))
    (unheard : Unheard jobId (.call pid call) stage
      (after.places jobId).stage) :
    Passes deployment jobId before action stage after := by
  rw [← cause] at moves unheard
  rcases own with same | ⟨none, free | unanswered | never⟩
  · subst same
    exact ⟨_, .moved moves, .held holds⟩
  · rw [holds] at free
    cases free
  · exact ⟨_, .unheard unanswered unheard,
      .unheld known (nobody_of_none alone others none)⟩
  · cases never

/-- A process moves the job of its claim. -/
theorem passes_of_claimed {claim : Claim} {next : Stage}
    (cause : before.cause action = .call pid call)
    (custody : before.InCustody jobId)
    (same : before.claim pid = claim) (holds : claim.holds? = some jobId)
    (shown : before.At jobId stage)
    (moves : Move jobId (.call pid call) (claim.stage pid) next)
    (reaches : after.At jobId next) :
    Passes deployment jobId before action stage after := by
  subst same
  rw [← cause] at moves
  rw [shown.unique custody (.held holds)]
  exact ⟨next, .moved moves, reaches⟩

/-- A process moves a job that waits in `ready` or `dlq`. -/
theorem alone_of_waiting
    (custody : before.InCustody jobId)
    (waiting : 0 < (before.places jobId).ready + (before.places jobId).delayed +
      (before.places jobId).dlq) (pid : Pid) :
    ∀ other, other ≠ pid → (before.claim other).holds? ≠ some jobId :=
  fun other _ => custody.unheld_of_waiting waiting other

theorem alone_of_held
    (custody : before.InCustody jobId)
    (holds : (before.claim pid).holds? = some jobId) :
    ∀ other, other ≠ pid → (before.claim other).holds? ≠ some jobId :=
  fun _ distinct holdsToo => distinct (custody.exclusive holdsToo holds)

/-- An overruled process can do no more about the job than release it. -/
theorem releases_of_superseded {outcome : Except AppError call.Reply}
    (permits : (Claim.superseded jobId).Permits call)
    (about : call.target? outcome = some jobId) :
    call.releases? = some jobId := by
  cases call with
  | ack | retryLater | deadLetter => exact about
  | push => rcases permits with other | other <;> cases other
  | brpoplpush | popDlq | insertJob | pushDelayed | zaddLease => cases permits
  | _ => cases about

/-- A process loses its claim by a call on something else only when it is
discouraged. -/
theorem discourages_of_dropped {claim : Claim}
    {outcome : Except AppError call.Reply} (permits : claim.Permits call)
    (holds : claim.holds? = some jobId)
    (about : call.target? outcome ≠ some jobId)
    (dropped : (claim.after call outcome).job? ≠ some jobId) :
    call.discourages outcome = true := by
  have known := Claim.job?_of_holds? holds
  unfold Claim.after at dropped
  split at dropped
  case h_10 => rfl
  case h_11 => exact absurd known dropped
  case h_1 | h_6 | h_9 =>
    -- a process takes up a job only when it has none
    rw [show claim = .none from permits] at known
    cases known
  case h_2 | h_8 =>
    rw [permits] at known
    exact absurd known about
  case h_3 | h_4 | h_5 | h_7 =>
    rcases permits with same | same <;>
      (rw [same] at known; exact absurd known about)

/-- A process that keeps to the claim discipline has made a call. -/
structure Performed (deployment : Deployment) (before : State)
    (action : Action) (pid : Pid) (choice : Choice) (call : Call)
    (after : State) : Prop where
  cause : before.cause action = .call pid call
  store : after.store = (exec deployment choice call before.store).2
  permits : (before.claim pid).Permits call
  others : ∀ other, other ≠ pid → after.claim other = before.claim other
  own : Resumed action
    (call.discourages (exec deployment choice call before.store).1)
    ((before.claim pid).after call
      (exec deployment choice call before.store).1) (after.claim pid)
  givesUp : action.unanswered = true ∨ call.discourages
    (exec deployment choice call before.store).1 = true →
      GivesUp deployment before action pid

namespace Performed

theorem places_after
    (performed : Performed deployment before action pid choice call after)
    (jobId : JobId) :
    after.places jobId = call.moves jobId (before.places jobId)
      (exec deployment choice call before.store).1 := by
  rw [State.places, performed.store, exec_places]
  rfl

theorem issued
    (performed : Performed deployment before action pid choice call after)
    (known : jobId ∈ before.store.db.issued) :
    jobId ∈ after.store.db.issued := by
  rw [performed.store]
  exact exec_issued deployment choice call before.store known

/-- A call that finds nothing to release. -/
theorem moves_of_overruled
    (performed : Performed deployment before action pid choice call after)
    (custody : before.InCustody jobId)
    (superseded : before.claim pid = .superseded jobId)
    (releases : call.releases? = some jobId)
    (same : after.places jobId = before.places jobId)
    (shown : before.At jobId stage) :
    Moves deployment jobId before action stage after := by
  have unheld : (before.claim pid).holds? ≠ some jobId := by
    simp [superseded, Claim.holds?]
  cases call with
  | ack | retryLater | deadLetter =>
      refine moves_of_dropped custody same
        (by rw [performed.store]; rfl) (fun holds => absurd holds unheld)
        performed.others (.inr (performed.own.elim id And.left)) shown
  | _ => cases releases

/-- A call on something else. -/
theorem moves_of_unrelated
    (performed : Performed deployment before action pid choice call after)
    (custody : before.InCustody jobId)
    (same : after.places jobId = before.places jobId)
    (about : call.target?
      (exec deployment choice call before.store).1 ≠ some jobId)
    (shown : before.At jobId stage) :
    Moves deployment jobId before action stage after := by
  have issued : jobId ∈ after.store.db.issued ↔
      jobId ∈ before.store.db.issued := by
    rw [performed.store]
    exact issued_of_target deployment choice about
  refine moves_of_unmoved custody same issued (fun other => ?_) shown
  by_cases actor : other = pid
  swap
  · exact .inl (performed.others other actor)
  subst actor
  rcases Claim.after_of_target about (before.claim other) with
    kept | unrelated
  · rcases performed.own with same | ⟨none, free | reason⟩
    · exact .inl (same.trans kept)
    · rw [kept] at free
      rw [none]
      exact .inr ⟨by simp [Claim.holds?, Claim.job?], fun holds => by
        rw [free] at holds
        cases holds⟩
    · rw [none]
      exact .inr ⟨by simp [Claim.holds?, Claim.job?],
        fun _ => performed.givesUp reason⟩
  · refine .inr ⟨fun holds => ?_, fun holds => performed.givesUp (.inr
      (discourages_of_dropped performed.permits holds about unrelated))⟩
    rcases performed.own with same | ⟨none, _⟩
    · rw [same] at holds
      exact unrelated (Claim.job?_of_holds? holds)
    · rw [none] at holds
      cases holds

/-- A release by the process whose claim is in force. -/
theorem passes_of_release {next : Stage}
    (performed : Performed deployment before action pid choice call after)
    (custody : before.InCustody jobId)
    (reserved : before.claim pid = .reserved jobId)
    (own : after.claim pid = .none)
    (issued : jobId ∈ after.store.db.issued ↔
      jobId ∈ before.store.db.issued)
    (reaches : (before.places jobId).inflight = 1 →
      (after.places jobId).stage = next)
    (moves : Move jobId (.call pid call) (.leased pid) next)
    (shown : before.At jobId stage) :
    Passes deployment jobId before action stage after := by
  obtain ⟨held, inflight, _⟩ := custody.fits_of reserved rfl
  refine passes_of_claimed performed.cause custody reserved rfl shown moves ?_
  rw [← reaches inflight]
  exact .unheld (issued.mpr (custody.issued_of_claim held))
    (nobody_of_none (alone_of_held custody held) performed.others own)

/-- `BRPOPLPUSH` takes the job from `ready`. -/
theorem passes_of_brpoplpush
    (performed :
      Performed deployment before action pid choice .brpoplpush after)
    (custody : before.InCustody jobId) (custodyAfter : after.InCustody jobId)
    (popped : before.store.redis.brpoplpush.1 = some jobId)
    (shown : before.At jobId stage) :
    Passes deployment jobId before action stage after := by
  have placesAfter := performed.places_after jobId
  have own := performed.own
  simp only [exec, popped] at own placesAfter
  have ready : 0 < (before.places jobId).ready := ready_of_brpoplpush popped
  have starts := State.at_of_waiting custody (by omega)
  rw [Places.stage_of_ready ready] at starts
  cases shown.unique custody starts
  have once := custody.sound.once
  have leased := custody.sound.leased
  unfold Places.copies at once
  refine passes_to_claim performed.cause performed.others
    (alone_of_waiting custody (by omega) pid)
    (performed.issued (custody.issued_of_copies ?_)) own rfl .claim ?_
  · unfold Places.copies
    omega
  · have inflight : 0 < (after.places jobId).inflight := by
      rw [placesAfter]
      simp [Call.moves]
    rw [Places.stage_of_inflight custodyAfter.sound inflight, if_pos]
    · exact .claim
    · rw [placesAfter]
      simp only [Call.moves, if_true]
      omega

/-- `ZADD` records the lease. -/
theorem passes_of_zaddLease {expiry : Int}
    (performed : Performed deployment before action pid choice
      (.zaddLease jobId expiry) after)
    (custody : before.InCustody jobId) (custodyAfter : after.InCustody jobId)
    (shown : before.At jobId stage) :
    Passes deployment jobId before action stage after := by
  have placesAfter := performed.places_after jobId
  obtain ⟨held, inflight, _⟩ := custody.fits_of performed.permits rfl
  rw [shown.unique custody (.held held),
    show before.claim pid = .popped jobId from performed.permits]
  refine passes_to_claim performed.cause performed.others
    (alone_of_held custody held)
    (performed.issued (custody.issued_of_claim held)) performed.own rfl
    .lease ?_
  have present : 0 < (after.places jobId).inflight := by
    rw [placesAfter]
    simp only [Call.moves, if_true]
    omega
  rw [Places.stage_of_inflight custodyAfter.sound present, if_neg]
  · exact .lease
  · rw [placesAfter]
    simp [Call.moves]

/-- `RPOP` takes the job from `dlq`. -/
theorem passes_of_popDlq
    (performed : Performed deployment before action pid choice .popDlq after)
    (custody : before.InCustody jobId)
    (popped : before.store.redis.popDlq.1 = some jobId)
    (shown : before.At jobId stage) :
    Passes deployment jobId before action stage after := by
  have placesAfter := performed.places_after jobId
  have own := performed.own
  simp only [exec, popped] at own placesAfter
  have dead : 0 < (before.places jobId).dlq := dlq_of_popDlq popped
  have starts := State.at_of_waiting custody (by omega)
  rw [Places.stage_of_dlq custody.sound dead] at starts
  cases shown.unique custody starts
  have once := custody.sound.once
  unfold Places.copies at once
  refine passes_to_claim performed.cause performed.others
    (alone_of_waiting custody (by omega) pid)
    (performed.issued (custody.issued_of_copies ?_)) own rfl .draw ?_
  · unfold Places.copies
    omega
  · rw [Places.stage_of_absent]
    · exact .draw
    · rw [placesAfter]
      simp only [Call.moves, Places.copies, if_true]
      omega

/-- The `INSERT` makes the job. -/
theorem passes_of_insertJob {input : JobInput} {job : Job}
    (performed : Performed deployment before action pid choice
      (.insertJob input) after)
    (custody : before.InCustody job.id)
    (inserted : (before.store.db.insertJob deployment.jsonb
      deployment.maxAttempts choice.uuid choice.now input).1 = .ok job)
    (shown : before.At job.id stage) :
    Passes deployment job.id before action stage after := by
  have own := performed.own
  simp only [exec, inserted] at own
  obtain ⟨fresh, known⟩ := fresh_of_insertJob inserted
  obtain ⟨absent, unclaimed⟩ := custody.unissued fresh
  cases shown.unique custody (.unborn fresh)
  refine passes_to_claim performed.cause performed.others
    (fun other _ holds => unclaimed other (Claim.job?_of_holds? holds))
    (by rw [performed.store]; exact known) own rfl .insert ?_
  rw [Places.stage_of_absent]
  · exact .insert
  · rw [performed.places_after]
    exact absent

/-- A call on the job by a process that keeps to the claim discipline. -/
theorem passes
    (performed : Performed deployment before action pid choice call after)
    (custody : before.InCustody jobId) (custodyAfter : after.InCustody jobId)
    (valid : before.claim pid ≠ .superseded jobId)
    (about : call.target?
      (exec deployment choice call before.store).1 = some jobId)
    (shown : before.At jobId stage) :
    Passes deployment jobId before action stage after := by
  have placesAfter := performed.places_after jobId
  cases call with
  | push id =>
      cases about
      have ready : 0 < (after.places jobId).ready := by
        rw [placesAfter]
        simp [Call.moves]
      have reaches := State.at_of_waiting custodyAfter (by omega)
      rw [Places.stage_of_ready ready] at reaches
      rcases performed.permits with inserted | replaying
      · exact passes_of_claimed performed.cause custody inserted rfl shown
          .push reaches
      · exact passes_of_claimed performed.cause custody replaying rfl shown
          .requeue reaches
  | pushDelayed id runAtMs =>
      cases about
      have delayed : 0 < (after.places jobId).delayed := by
        rw [placesAfter]
        simp [Call.moves]
      have reaches := State.at_of_waiting custodyAfter (by omega)
      rw [Places.stage_of_delayed custodyAfter.sound delayed] at reaches
      exact passes_of_claimed performed.cause custody performed.permits rfl
        shown .schedule reaches
  | brpoplpush =>
      simp only [exec] at about
      cases popped : before.store.redis.brpoplpush.1 with
      | none =>
          rw [popped] at about
          cases about
      | some id =>
          rw [popped] at about
          cases about
          exact performed.passes_of_brpoplpush custody custodyAfter popped
            shown
  | zaddLease id expiry =>
      cases about
      exact performed.passes_of_zaddLease custody custodyAfter shown
  | ack id =>
      cases about
      refine performed.passes_of_release custody
        (performed.permits.resolve_right valid) (performed.own.elim id And.left)
        (by rw [performed.store]; rfl) (fun inflight => ?_) .ack shown
      have once := custody.sound.once
      refine Places.stage_of_absent ?_
      rw [placesAfter]
      simp only [Call.moves, Places.release, Places.copies, if_true] at once ⊢
      omega
  | retryLater id runAtMs =>
      cases about
      refine performed.passes_of_release custody
        (performed.permits.resolve_right valid) (performed.own.elim id And.left)
        (by rw [performed.store]; rfl) (fun _ => ?_) .retry shown
      refine Places.stage_of_delayed custodyAfter.sound ?_
      rw [placesAfter]
      simp [Call.moves]
  | deadLetter id =>
      cases about
      refine performed.passes_of_release custody
        (performed.permits.resolve_right valid) (performed.own.elim id And.left)
        (by rw [performed.store]; rfl) (fun _ => ?_) .bury shown
      refine Places.stage_of_dlq custodyAfter.sound ?_
      rw [placesAfter]
      simp [Call.moves]
  | popDlq =>
      simp only [exec] at about
      cases popped : before.store.redis.popDlq.1 with
      | none =>
          rw [popped] at about
          cases about
      | some id =>
          rw [popped] at about
          cases about
          exact performed.passes_of_popDlq custody popped shown
  | insertJob input =>
      simp only [exec] at about
      cases inserted : (before.store.db.insertJob deployment.jsonb
          deployment.maxAttempts choice.uuid choice.now input).1 with
      | error failure =>
          rw [inserted] at about
          cases about
      | ok job =>
          rw [inserted] at about
          cases about
          exact performed.passes_of_insertJob custody inserted shown
  | _ => cases about

/-- One call of a process that keeps to the claim discipline. -/
theorem moves
    (performed : Performed deployment before action pid choice call after)
    (custody : before.InCustody jobId) (custodyAfter : after.InCustody jobId)
    (fenced : before.claim pid = .superseded jobId →
      call.FindsNothing (before.places jobId))
    (shown : before.At jobId stage) :
    Moves deployment jobId before action stage after := by
  have places := performed.places_after jobId
  by_cases about : call.target?
      (exec deployment choice call before.store).1 = some jobId
  swap
  · rw [Call.moves_of_target about] at places
    exact performed.moves_of_unrelated custody places about shown
  by_cases superseded : before.claim pid = .superseded jobId
  · have releases := releases_of_superseded (superseded ▸ performed.permits)
      about
    rw [Call.moves_of_findsNothing custody.sound releases
      (fenced superseded)] at places
    exact performed.moves_of_overruled custody superseded releases places
      shown
  · exact .inr (performed.passes custody custodyAfter superseded about
      shown)

end Performed

/-- A process that has got an answer keeps its claim unless the answer
discourages it. -/
theorem resumed_of_resumes {process : Process}
    {next : call.Reply → Async Result} {rescue : AppError → Async Result}
    {resumed : Except AppError call.Reply → Process}
    (perseveres : process.Perseveres)
    (running : process.status = .running (.call call next rescue))
    (resumes : Resumes deployment pid choice process next rescue action
      resumed) (outcome : Except AppError call.Reply) :
    Resumed action (call.discourages outcome)
      (process.claim.after call outcome) (resumed outcome).claim := by
  have own := QueueInvariant.claim_of_resumes resumes outcome
  cases resumes with
  | unanswered => exact own.imp_right fun none => ⟨none, .inr (.inl rfl)⟩
  | replied =>
      cases discouraged : call.discourages outcome with
      | true => exact own.imp_right fun none => ⟨none, .inr (.inr rfl)⟩
      | false =>
          cases holds : (process.claim.after call outcome).holds? with
          | none => exact own.imp_right fun none => ⟨none, .inl holds⟩
          | some id =>
              exact .inl (perseveres.claim_replied running discouraged
                (by simp [holds]))

theorem givesUp_of_resumes {process : Process}
    {next : call.Reply → Async Result} {rescue : AppError → Async Result}
    {resumed : Except AppError call.Reply → Process}
    (pending : before.pending? pid = some call)
    (resumes : Resumes deployment pid choice process next rescue action
      resumed)
    (reason : action.unanswered = true ∨ call.discourages
      (exec deployment choice call before.store).1 = true) :
    GivesUp deployment before action pid := by
  cases resumes with
  | replied =>
      rcases reason with never | discouraged
      · cases never
      · exact ⟨rfl, call, pending, discouraged⟩
  | unanswered => exact rfl

/-- The calls of the processes. -/
theorem Performed.of_resumes {process : Process}
    {next : call.Reply → Async Result} {rescue : AppError → Async Result}
    {resumed : Except AppError call.Reply → Process}
    (invariant : QueueInvariant before) (persevering : before.Persevering)
    (found : before.processes pid = some process)
    (running : process.status = .running (.call call next rescue))
    (resumes : Resumes deployment pid choice process next rescue action
      resumed) :
    Performed deployment before action pid choice call
      (before.perform deployment pid choice call resumed) := by
  have pending := State.pending?_of_running found running
  refine ⟨?_, rfl, invariant.permits pending, fun other distinct =>
    State.claim_congr (before.perform_of_ne _ _ _ _ _ distinct), ?_,
      givesUp_of_resumes pending resumes⟩
  · cases resumes <;> simp only [State.cause, pending]
  · rw [State.claim_of_found (before.perform_self _ _ _ _ _),
      State.claim_of_found found]
    exact resumed_of_resumes (persevering _ _ found) running resumes _

end Calls

/-! ## The life of a job in a run -/

/-- The promotion script. -/
theorem moves_of_promote {nowMs : Int} {batchSize : Nat}
    (taken : step deployment before (.promote nowMs batchSize) = some after)
    (custody : before.InCustody jobId) (custodyAfter : after.InCustody jobId)
    (shown : before.At jobId stage) :
    Moves deployment jobId before (.promote nowMs batchSize) stage after := by
  have places := before.store.redis.places_promoteScript nowMs batchSize jobId
  rw [show (before.store.redis.promoteScript nowMs batchSize).2.places jobId =
    after.places jobId by rw [← Option.some.inj taken]; rfl] at places
  split at places
  next due =>
    have delayed : (before.places jobId).delayed = 1 :=
      Redis.delayed_of_mem_range due
    have starts := State.at_of_waiting custody (by omega)
    rw [Places.stage_of_delayed custody.sound (by omega)] at starts
    cases shown.unique custody starts
    have ready : 0 < (after.places jobId).ready := by
      rw [places]
      exact Nat.succ_pos _
    have reaches := State.at_of_waiting custodyAfter (by omega)
    rw [Places.stage_of_ready ready] at reaches
    exact .inr ⟨_, .moved .promote, reaches⟩
  · cases taken
    exact moves_of_unmoved custody places Iff.rfl (fun _ => .inl rfl) shown

/-- The reaper's script. -/
theorem moves_of_reap {nowMs : Int} {batchSize : Nat}
    (taken : step deployment before (.reap nowMs batchSize) = some after)
    (custody : before.InCustody jobId) (custodyAfter : after.InCustody jobId)
    (shown : before.At jobId stage) :
    Moves deployment jobId before (.reap nowMs batchSize) stage after := by
  cases taken
  have places : (before.reap nowMs batchSize).places jobId = _ :=
    before.store.redis.places_reapScript nowMs batchSize jobId
  split at places
  next expired =>
    have leased : (before.places jobId).leases = 1 :=
      Redis.leased_of_mem_range expired
    have within := custody.sound.leased
    have ready : 0 < ((before.reap nowMs batchSize).places jobId).ready := by
      rw [places]
      exact Nat.succ_pos _
    have reaches := State.at_of_waiting custodyAfter (by omega)
    rw [Places.stage_of_ready ready] at reaches
    refine .inr ⟨_, .moved ?_, reaches⟩
    cases shown with
    | unborn fresh =>
        have absent := (custody.unissued fresh).1
        unfold Places.copies at absent
        omega
    | @held pid holds =>
        have fits := custody.fits holds
        rcases Claim.holds?_cases holds with same | same | same | same <;>
          rw [same] at fits ⊢
        · simp only [Claim.Fits, Places.copies] at fits
          omega
        · exact absurd fits.2 (by omega)
        · exact .overrule
        · simp only [Claim.Fits, Places.copies] at fits
          omega
    | unheld known nobody =>
        rw [Places.stage_of_inflight custody.sound (by omega),
          if_neg (by omega)]
        exact .reap
  next unexpired =>
    refine moves_of_unmoved custody places Iff.rfl (fun pid => ?_) shown
    rw [before.claim_reap]
    cases claim : before.claim pid with
    | reserved id =>
        by_cases listed :
            id ∈ before.store.redis.leases.rangeByScore nowMs batchSize
        · have distinct : id ≠ jobId := fun same =>
            unexpired (same ▸ listed)
          right
          simp [Claim.reaped, listed, Claim.holds?, Claim.job?, distinct]
        · simp [Claim.reaped, listed]
    | _ => exact .inl rfl

/-- Every step of the system leaves the job at its stage or makes one of its
passages. -/
theorem moves_of_step (invariant : QueueInvariant before)
    (persevering : before.Persevering) (unharmed : Unharmed before action)
    (taken : step deployment before action = some after)
    (shown : before.At jobId stage) :
    Moves deployment jobId before action stage after := by
  have custody := invariant.custody jobId
  have custodyAfter := (invariant.step unharmed taken).custody jobId
  cases steps_of_step taken with
  | @start pid role unused =>
      refine moves_of_unmoved custody rfl Iff.rfl (fun other => ?_) shown
      by_cases same : other = pid
      · subst same
        left
        rw [State.claim_setProcess_self, State.claim_of_unused unused]
        exact Process.proceed_claim.elim id id
      · exact .inl (State.claim_setProcess_of_ne _ same _)
  | @performed _ pid choice process call next rescue resumed found running
      connected resumes =>
      have pending := State.pending?_of_running found running
      refine (Performed.of_resumes invariant persevering found running
        resumes).moves custody custodyAfter (fun superseded => ?_) shown
      cases releases : call.releases? with
      | none => exact Call.findsNothing_of_releases releases
      | some id =>
          have about := (Claim.works_of_releases (invariant.permits pending)
            releases).job?
          rw [superseded] at about
          cases about
          exact unharmed (jobId, call) (overruledRelease?_eq_some.mpr
            ⟨pid, resumes.performer?.1, pending, releases, superseded⟩)
  | @failed pid failure process call next rescue found running =>
      refine @moves_of_dropped _ _ _ _ _ _ pid custody rfl Iff.rfl (fun _ => rfl)
        (fun other distinct => State.claim_setProcess_of_ne _ distinct _) ?_
        shown
      rw [State.claim_setProcess_self, State.claim_of_found found]
      rcases Process.proceed_claim with same | none
      · rw [Process.failed, same]
        exact Claim.lost_cases _
      · exact .inr none
  | @crashed pid process found live =>
      refine @moves_of_dropped _ _ _ _ _ _ pid custody rfl Iff.rfl (fun _ => rfl)
        (fun other distinct => State.claim_setProcess_of_ne _ distinct _) ?_
        shown
      exact .inr (State.claim_setProcess_self ..)
  | @shutdown pid process found =>
      refine moves_of_unmoved custody rfl Iff.rfl (fun other => .inl ?_) shown
      by_cases same : other = pid
      · subst same
        rw [State.claim_setProcess_self, Process.shutdown_claim,
          State.claim_of_found found]
      · exact State.claim_setProcess_of_ne _ same _
  | promoted => exact moves_of_promote taken custody custodyAfter shown
  | reaped => exact moves_of_reap taken custody custodyAfter shown
  | ticked =>
      exact moves_of_unmoved custody rfl Iff.rfl (fun _ => .inl rfl) shown
  | @registered row unused =>
      by_cases same : jobId = row.id
      · subst same
        obtain ⟨absent, unclaimed⟩ := custody.unissued unused
        cases shown.unique custody (.unborn unused)
        refine .inr ⟨.gone, .moved .usedUp, ?_⟩
        rw [← Places.stage_of_absent absent]
        exact .unheld List.mem_cons_self fun pid holds =>
          unclaimed pid (Claim.job?_of_holds? holds)
      · refine moves_of_unmoved custody rfl ?_ (fun _ => .inl rfl) shown
        show jobId ∈ row.id :: before.store.db.issued ↔ _
        rw [List.mem_cons]
        exact or_iff_right same
  | deleted =>
      exact moves_of_unmoved custody rfl Iff.rfl (fun _ => .inl rfl) shown

/-- A call has taken effect on the job, and its process had not been
overruled. -/
def Handles (jobId : JobId) (transition : Transition State Action) : Prop :=
  ∃ event, transition.after.history = event :: transition.before.history ∧
    event.call.target? event.outcome = some jobId ∧
      transition.before.claim event.pid ≠ .superseded jobId

/-- Such a call takes the job to another stage. -/
theorem passes_of_step (invariant : QueueInvariant before)
    (persevering : before.Persevering) (unharmed : Unharmed before action)
    (taken : step deployment before action = some after)
    (handles : Handles jobId ⟨before, action, after⟩)
    (shown : before.At jobId stage) :
    Passes deployment jobId before action stage after := by
  obtain ⟨event, recorded, about, valid⟩ := handles
  have custodyAfter := (invariant.step unharmed taken).custody jobId
  cases steps_of_step taken with
  | performed found running connected resumes =>
      cases recorded
      exact (Performed.of_resumes invariant persevering found running
        resumes).passes (invariant.custody jobId) custodyAfter valid about shown
  | start | failed | crashed | shutdown | promoted | reaped | ticked
  | registered | deleted => exact absurd recorded List.ne_cons_self

theorem Move.ne {cause : Cause} {next : Stage}
    (moves : Move jobId cause stage next) : next ≠ stage := by
  cases moves <;> simp

theorem Unheard.ne {cause : Cause} {next : Stage}
    (moves : Unheard jobId cause stage next) : next ≠ stage := by
  cases moves <;> simp

theorem Stage.left_ne {pid : Pid} (holds : stage.holder? = some pid) :
    stage.left ≠ stage := by
  cases stage <;> first | simp [left]; done | cases holds

/-- A passage leads to another stage. -/
theorem Passage.ne {next : Stage}
    (passage : Passage deployment jobId before action stage next) :
    next ≠ stage := by
  cases passage with
  | moved moves => exact moves.ne
  | unheard _ moves => exact moves.ne
  | left holds => exact Stage.left_ne holds

/-- The system, seen from one job. -/
def lifecycleOf (deployment : Deployment) (jobId : JobId) :
    Simulation (step deployment) Unharmed (lifecycle deployment jobId) where
  invariant state := QueueInvariant state ∧ state.Persevering
  shows state := state.At jobId
  kept invariant unharmed taken :=
    ⟨invariant.1.step unharmed taken, invariant.2.step taken⟩
  matched invariant unharmed taken shown :=
    moves_of_step invariant.1 invariant.2 unharmed taken shown

theorem lifecycleOf_initial :
    (lifecycleOf deployment jobId).invariant .initial ∧
      State.initial.At jobId .unborn := by
  refine ⟨⟨.initial, .initial⟩, .unborn ?_⟩
  simp [State.initial, Store.empty, Postgres.empty]

theorem lifecycleOf_reached {actions : List Action}
    (runs : run (step deployment) State.initial actions = some state)
    (unharmed : ∀ transition ∈
      transitions (step deployment) State.initial actions,
        Unharmed transition.before transition.action) :
    (lifecycleOf deployment jobId).invariant state :=
  (Reachable.of_run runs unharmed).invariant _ lifecycleOf_initial.1
    fun _ _ _ => (lifecycleOf deployment jobId).kept

/-- In every run in which overruled workers find nothing to release, whatever
crashes or fails, every job is at one stage at a time, which says where its
copies are, `unborn` first.  Every step leaves it there, makes the move that its
call or script stands for, takes it where the call of a process that does not
hear of it leaves it, or is one in which the process that has it gives up.  A
call that takes effect on the job does not leave it there. -/
theorem lifecycle_refined {actions : List Action}
    (unharmed : ∀ transition ∈
      transitions (step deployment) State.initial actions,
        Unharmed transition.before transition.action) (jobId : JobId) :
    State.initial.Stands jobId .unborn ∧
      ∀ transition ∈ transitions (step deployment) State.initial actions,
        ∃ stage next, transition.before.Stands jobId stage ∧
          transition.after.Stands jobId next ∧
            (next = stage ∨
              lifecycle deployment jobId transition stage next) ∧
              (Handles jobId transition → next ≠ stage) := by
  obtain ⟨start, unborn⟩ := @lifecycleOf_initial deployment jobId
  refine ⟨unborn.stands (start.1.custody jobId), fun transition member => ?_⟩
  have taken := step_of_mem_transitions member
  obtain ⟨⟨invariant, persevering⟩, invariantAfter, _⟩ :=
    invariant_of_transitions _ (fun _ _ _ => (lifecycleOf deployment jobId).kept)
      start unharmed transition member
  obtain ⟨stage, next, shown, reaches, moves⟩ :=
    (lifecycleOf deployment jobId).shown_throughout start unharmed unborn
      transition member
  have stands := reaches.stands (invariantAfter.custody jobId)
  refine ⟨stage, next, shown.stands (invariant.custody jobId), stands, moves,
    fun handles => ?_⟩
  obtain ⟨other, passage, also⟩ := passes_of_step invariant persevering
    (unharmed transition member) taken handles shown
  rw [← (stands.alone other).mp also]
  exact passage.ne

/-- Worker 1 crashes while its request is out, the reaper returns the job, and
worker 2 delivers it. -/
def deliveredAfterCrash : List Action :=
  .start 1 .worker :: calls 1 15 ++ [.crash 1, .reap 60000 100] ++
    deliverOnce 2 200 6

def livedThrough : List Action :=
  enqueueOne ++ deliveredAfterCrash

theorem lifecycle_refined_livedThrough :
    State.initial.Stands 2 .unborn ∧
      ∀ transition ∈ transitions (step {}) State.initial livedThrough,
        ∃ stage next, transition.before.Stands 2 stage ∧
          transition.after.Stands 2 next ∧
            (next = stage ∨ lifecycle {} 2 transition stage next) ∧
              (Handles 2 transition → next ≠ stage) := by
  have unharmed : ∀ transition ∈
      transitions (step {}) State.initial livedThrough,
        Unharmed transition.before transition.action := by decide +kernel
  exact lifecycle_refined unharmed 2

/-! ## The end of a job -/

/-- The id has been given, is in none of the structures, and nobody has it. -/
structure State.Gone (state : State) (jobId : JobId) : Prop where
  known : jobId ∈ state.store.db.issued
  absent : (state.places jobId).copies = 0
  nobody : ∀ pid, (state.claim pid).holds? ≠ some jobId

theorem State.Gone.at (gone : state.Gone jobId) : state.At jobId .gone := by
  rw [← Places.stage_of_absent gone.absent]
  exact .unheld gone.known gone.nobody

theorem State.At.gone (shown : state.At jobId .gone) : state.Gone jobId :=
  ⟨shown.means.1, shown.means.2.1, shown.means.2.2⟩

theorem Move.ne_gone {cause : Cause} {next : Stage}
    (moves : Move jobId cause stage next) : stage ≠ .gone := by
  cases moves <;> simp

theorem Unheard.ne_gone {cause : Cause} {next : Stage}
    (moves : Unheard jobId cause stage next) : stage ≠ .gone := by
  cases moves <;> simp

/-- Nothing leads away from the end. -/
theorem Passage.not_from_gone {next : Stage} :
    ¬Passage deployment jobId before action .gone next := by
  intro passage
  cases passage with
  | moved moves => exact moves.ne_gone rfl
  | unheard _ moves => exact moves.ne_gone rfl
  | left holds => cases holds

theorem State.Gone.step (gone : before.Gone jobId)
    (invariant : QueueInvariant before) (persevering : before.Persevering)
    (unharmed : Unharmed before action)
    (taken : WebhookDelivery.step deployment before action = some after) :
    after.Gone jobId ∧ ∃ window, after.history = window ++ before.history ∧
      ∀ event ∈ window, event.popped? ≠ some jobId := by
  constructor
  · rcases moves_of_step invariant persevering unharmed taken gone.at with
      stays | ⟨next, passage, _⟩
    · exact stays.gone
    · exact absurd passage Passage.not_from_gone
  · rcases history_of_step taken with ⟨same, _⟩ | ⟨same, _⟩ |
      ⟨pid, choice, call, _, _, _, same⟩
    · exact ⟨[], same, by simp⟩
    · exact ⟨[], same, by simp⟩
    · refine ⟨[_], same, fun event member pops => ?_⟩
      rw [List.mem_singleton] at member
      subst member
      cases call with
      | brpoplpush =>
          have popped : before.store.redis.brpoplpush.1 = some jobId := by
            simp only [exec, Event.popped?] at pops
            cases drawn : before.store.redis.brpoplpush.1 with
            | none =>
                rw [drawn] at pops
                cases pops
            | some id =>
                rw [drawn] at pops
                exact pops
          have ready := ready_of_brpoplpush popped
          have absent : (before.store.redis.places jobId).copies = 0 :=
            gone.absent
          unfold Places.copies at absent
          omega
      | _ => cases pops

/-- Whoever has a job has made a call. -/
theorem nobody_of_history {actions : List Action}
    (runs : run (step deployment) State.initial actions = some state)
    (unheld : ∀ event ∈ state.history,
      (state.claim event.pid).holds? ≠ some jobId) (pid : Pid) :
    (state.claim pid).holds? ≠ some jobId := by
  have accounted := invariant_of_run runs State.Accounted.initial
    fun _ _ _ held taken => held.step taken
  rcases accounted pid with none | ⟨event, member, rfl, _⟩
  · rw [none]
    simp [Claim.holds?, Claim.job?]
  · exact unheld event member

/-- When an id has left the queue and nobody has it any more, then it never
comes back: in no continuation of the run, with overruled workers that find
nothing to release, is it ever in one of the structures again, or handed to a
worker. -/
theorem gone_for_good {first second : List Action}
    (starts : run (step deployment) State.initial first = some before)
    (runs : run (step deployment) before second = some after)
    (unharmed : ∀ transition ∈
      transitions (step deployment) State.initial (first ++ second),
        Unharmed transition.before transition.action)
    (gone : before.Gone jobId) :
    after.Gone jobId ∧ ∃ window, after.history = window ++ before.history ∧
      ∀ event ∈ window, event.popped? ≠ some jobId := by
  rw [transitions_append starts, List.forall_mem_append] at unharmed
  have invariant := @lifecycleOf_reached _ _ jobId _ starts unharmed.1
  have later := unharmed.2
  clear unharmed starts
  induction second generalizing before with
  | nil =>
      cases runs
      exact ⟨gone, [], rfl, by simp⟩
  | cons action actions ih =>
      obtain ⟨next, taken, rest⟩ := Option.bind_eq_some_iff.mp runs
      rw [transitions_cons taken, List.forall_mem_cons] at later
      obtain ⟨goneNext, one, grows, unpopped⟩ :=
        gone.step invariant.1 invariant.2 later.1 taken
      obtain ⟨goneLast, window, growsOn, unpoppedOn⟩ :=
        ih rest goneNext ((lifecycleOf deployment jobId).kept invariant later.1
          taken) later.2
      refine ⟨goneLast, window ++ one, ?_, ?_⟩
      · rw [growsOn, grows, List.append_assoc]
      · exact List.forall_mem_append.mpr ⟨unpoppedOn, unpopped⟩

/-- A third worker and the schedulers find nothing of a job that worker 2 has
acknowledged. -/
def afterwards : List Action :=
  [.promote 90000 100, .reap 90000 100, .start 3 .worker] ++ calls 3 1

theorem gone_for_good_delivered :
    ∃ before after,
      run (step {}) State.initial livedThrough = some before ∧
        run (step {}) before afterwards = some after ∧
          after.Gone 2 ∧ ∃ window, after.history = window ++ before.history ∧
            ∀ event ∈ window, event.popped? ≠ some 2 := by
  have evaluated : (run (step {}) State.initial livedThrough).map (fun before =>
      (decide (2 ∈ before.store.db.issued), (before.places 2).copies,
        before.history.all fun event =>
          decide ((before.claim event.pid).holds? ≠ some 2),
        (run (step {}) before afterwards).isSome)) =
          some (true, 0, true, true) := by decide +kernel
  obtain ⟨before, starts, ends⟩ := Option.map_eq_some_iff.mp evaluated
  simp only [Prod.mk.injEq, decide_eq_true_eq, List.all_eq_true] at ends
  obtain ⟨known, absent, unheld, goesOn⟩ := ends
  obtain ⟨after, runs⟩ := Option.isSome_iff_exists.mp goesOn
  have unharmed : ∀ transition ∈ transitions (step {}) State.initial
      (livedThrough ++ afterwards),
        Unharmed transition.before transition.action := by decide +kernel
  exact ⟨before, after, starts, runs, gone_for_good starts runs unharmed
    ⟨known, absent, nobody_of_history starts unheld⟩⟩

/-! ## How a job leaves the queue -/

/-- In one of the structures. -/
def Stage.InQueue : Stage → Prop
  | .ready | .claimed _ | .leased _ | .abandoned | .stray | .delayed
  | .dead => True
  | _ => False

/-- In one of the structures, or on its way back from `dlq`. -/
def Stage.Placed : Stage → Prop
  | .replaying _ => True
  | stage => stage.InQueue

/-- The process that gives up acts. -/
theorem GivesUp.actor? {pid : Pid}
    (givesUp : GivesUp deployment state action pid) :
    (state.cause action).actor? = some pid := by
  cases action with
  | crash | fail => exact congrArg some givesUp
  | failLate =>
      cases givesUp
      unfold State.cause
      dsimp only
      split <;> rfl
  | call =>
      obtain ⟨rfl, call, pending, _⟩ := givesUp
      simp only [State.cause, pending, Cause.actor?]
  | _ => cases givesUp

/-- A passage that takes a job out for good. -/
theorem Passage.departs {next : Stage}
    (passage : Passage deployment jobId state action stage next)
    (placed : stage.Placed) (departs : ¬next.Placed) :
    (∃ pid, state.cause action = .call pid (.ack jobId) ∧
        stage = .leased pid) ∨
      (∃ pid, state.cause action = .call pid .popDlq ∧ stage = .dead) ∨
        ∃ pid, (state.cause action).actor? = some pid ∧
          stage = .replaying pid := by
  cases passage with
  | moved moves =>
      generalize state.cause action = cause at moves ⊢
      cases moves with
      | @ack pid => exact .inl ⟨pid, rfl, rfl⟩
      | insert | usedUp | push | schedule => exact placed.elim
      | claim | lease | retry | bury | draw | requeue | promote | reap
      | overrule => exact absurd trivial departs
  | unheard _ moves =>
      generalize state.cause action = cause at moves ⊢
      cases moves with
      | @draw pid => exact .inr (.inl ⟨pid, rfl, rfl⟩)
      | insert => exact placed.elim
      | claim | lease => exact absurd trivial departs
  | @left pid holds givesUp =>
      cases stage with
      | replaying other =>
          cases holds
          exact .inr (.inr ⟨pid, givesUp.actor?, rfl⟩)
      | claimed | leased => exact absurd trivial departs
      | created => exact placed.elim
      | unborn | ready | abandoned | stray | delayed | dead | gone =>
          cases holds

/-- The job has a copy in the queue exactly at the stages that say so. -/
theorem State.At.inQueue_iff (shown : state.At jobId stage)
    (custody : state.InCustody jobId) :
    stage.InQueue ↔ 0 < (state.places jobId).copies := by
  rw [(shown.stands custody).placed]
  cases stage <;> simp [Stage.InQueue, Stage.places, Places.copies]

/-- A step that ends the stay of a job in the queue: the worker that has its
lease acknowledges it, a replay draws it from `dlq` without hearing of it, or
the replay that has drawn it gives up. -/
def Departs (jobId : JobId) (state : State) (action : Action) : Prop :=
  ∃ pid, state.cause action = .call pid (.ack jobId) ∧
      state.claim pid = .reserved jobId ∨
    state.cause action = .call pid .popDlq ∧
      0 < (state.places jobId).dlq ∨
    (state.cause action).actor? = some pid ∧
      state.claim pid = .replaying jobId

theorem departs_of_passage {transition : Transition State Action} {next : Stage}
    (shown : transition.before.At jobId stage)
    (passage : lifecycle deployment jobId transition stage next)
    (placed : stage.Placed) (leaves : ¬next.Placed) :
    Departs jobId transition.before transition.action := by
  have means := shown.means
  rcases Passage.departs passage placed leaves with
    ⟨pid, acks, rfl⟩ | ⟨pid, draws, rfl⟩ | ⟨pid, acts, rfl⟩
  · exact ⟨pid, .inl ⟨acks, means⟩⟩
  · exact ⟨pid, .inr (.inl ⟨draws, means⟩)⟩
  · exact ⟨pid, .inr (.inr ⟨acts, means⟩)⟩

theorem Stage.placed_of_inQueue (inQueue : stage.InQueue) : stage.Placed := by
  cases stage <;> trivial

/-- A job that was in the queue and is not there any more, nor with a replay
that has drawn it, has been acknowledged by the worker that had its lease, or
got lost in a replay: one that did not hear of what it drew, or one that gave
up with the job in its hands. -/
theorem departed_by {first second : List Action}
    (starts : run (step deployment) State.initial first = some before)
    (runs : run (step deployment) before second = some after)
    (unharmed : ∀ transition ∈
      transitions (step deployment) State.initial (first ++ second),
        Unharmed transition.before transition.action)
    (present : 0 < (before.places jobId).copies)
    (absent : (after.places jobId).copies = 0)
    (undrawn : ∀ pid, after.claim pid ≠ .replaying jobId) :
    ∃ transition ∈ transitions (step deployment) before second,
      Departs jobId transition.before transition.action := by
  have whole := (run_append starts second).trans runs
  have custodyAfter :=
    (@lifecycleOf_reached _ _ jobId _ whole unharmed).1.custody jobId
  rw [transitions_append starts, List.forall_mem_append] at unharmed
  have invariant := @lifecycleOf_reached _ _ jobId _ starts unharmed.1
  have custody := invariant.1.custody jobId
  obtain ⟨stage, shown⟩ : ∃ stage, before.At jobId stage := by
    have known := custody.issued_of_copies present
    by_cases somebody : ∃ pid, (before.claim pid).holds? = some jobId
    · obtain ⟨pid, holds⟩ := somebody
      exact ⟨_, .held holds⟩
    · exact ⟨_, .unheld known fun pid holds => somebody ⟨pid, holds⟩⟩
  have inQueue := (shown.inQueue_iff custody).mpr present
  rcases (lifecycleOf deployment jobId).stays_or_leaves invariant runs
    unharmed.2 shown (Stage.placed_of_inQueue inQueue) with
    ⟨last, shownLast, placed⟩ |
      ⟨transition, member, last, next, shownThen, placed, passage, leaves⟩
  · exfalso
    have out := (shownLast.inQueue_iff custodyAfter).not.mpr (by omega)
    cases last with
    | replaying pid => exact undrawn pid shownLast.means
    | _ => exact out placed
  · exact ⟨transition, member, departs_of_passage shownThen passage placed
    leaves⟩

theorem departed_by_deliveredAfterCrash :
    ∃ before after, run (step {}) State.initial enqueueOne = some before ∧
      run (step {}) before deliveredAfterCrash = some after ∧
        ∃ transition ∈ transitions (step {}) before deliveredAfterCrash,
          Departs 2 transition.before transition.action := by
  have evaluated : (run (step {}) State.initial enqueueOne).map (fun before =>
      (decide (0 < (before.places 2).copies),
        (run (step {}) before deliveredAfterCrash).map fun after =>
          ((after.places 2).copies, after.history.all fun event =>
            decide ((after.claim event.pid).holds? ≠ some 2)))) =
              some (true, some (0, true)) := by decide +kernel
  obtain ⟨before, starts, ends⟩ := Option.map_eq_some_iff.mp evaluated
  obtain ⟨present, ends⟩ := Prod.mk.inj ends
  obtain ⟨after, runs, ends⟩ := Option.map_eq_some_iff.mp ends
  simp only [Prod.mk.injEq, decide_eq_true_eq, List.all_eq_true] at ends
  have unharmed : ∀ transition ∈ transitions (step {}) State.initial
      (enqueueOne ++ deliveredAfterCrash),
        Unharmed transition.before transition.action := by decide +kernel
  refine ⟨before, after, starts, runs, departed_by starts runs unharmed
    (of_decide_eq_true present) ends.1 fun pid replays => ?_⟩
  have unheld := nobody_of_history ((run_append starts _).trans runs) ends.2 pid
  rw [replays] at unheld
  exact unheld rfl

end WebhookDelivery
