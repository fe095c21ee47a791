import WebhookDelivery.QueueDiscipline

/-!
# What a worker knows of its row

`process` reads the row of its job once and then acts on what it has read.
While its claim is in force nobody else writes the row, so that every later
call finds the row as the worker left it.  This file states what that comes
to at each call; nothing is said of a worker the reaper has overruled.
-/

namespace WebhookDelivery

open Concurrency Program Discipline

/-- The states that the terminal-state guard of `process` lets by. -/
def JobState.Open (state : JobState) : Prop :=
  ¬(state = .succeeded ∨ state = .dead)

instance : DecidablePred JobState.Open :=
  fun _ => inferInstanceAs (Decidable (¬_))

/-- The job that a call has read and found succeeded. -/
def Event.succeeded? : Event → Option JobId
  | ⟨_, .findJob jobId, .ok (some job)⟩ =>
      if job.state = .succeeded then some jobId else none
  | _ => none

/-- A process has read the job as succeeded. -/
def State.readSucceeded (state : State) (jobId : JobId) : Bool :=
  state.history.any fun event => event.succeeded? = some jobId

/-- A claim, the row of the job it is about, and whether that job has been
read as succeeded. -/
structure RowView where
  claim : Claim
  row : Option JobRow
  read : Bool

def State.rowView (claim : Claim) (state : State) : RowView where
  claim := claim
  row := claim.job?.bind state.store.db.jobs
  read := claim.job?.any state.readSucceeded

namespace RowView

variable (claimsDead : Prop)

/-- The row has a property, unless it has been deleted. -/
def All (view : RowView) (property : JobRow → Prop) : Prop :=
  ∀ row, view.row = some row → property row

/-- Nobody else writes the row of a claim in force; rows may be deleted, and
read. -/
def Rely (before after : RowView) : Prop :=
  (after.claim = before.claim ∧
      (∀ row, after.row = some row → before.row = some row) ∧
      (after.read → before.read ∨
        ∃ row, before.row = some row ∧ row.state = .succeeded)) ∨
    ∃ jobId, before.claim.Works jobId ∧ after.claim = .superseded jobId

/-- What holds of the row when a claim in force makes a call; `claimsDead`
says whether workers may claim jobs that are already dead. -/
def Permits (view : RowView) : Call → Prop
  | .updateState update =>
      view.claim = .reserved update.id →
        view.All fun row => row.state.Open ∧
          (update.state.Open → update.incrementAttempts →
            row.attempts + 1 < row.maxAttempts)
  | .ack jobId =>
      view.claim = .reserved jobId → view.All fun row =>
        row.state = .succeeded ∨ row.state = .dead ∧ claimsDead
  | .retryLater jobId runAtMs =>
      view.claim = .reserved jobId →
        view.All fun row => row.state = .queued ∧ row.runAt = runAtMs
  | .deadLetter jobId =>
      view.claim = .reserved jobId → view.All fun row => row.state = .dead
  | .push jobId =>
      view.claim.holds? = some jobId →
        view.All fun row => row.state = .queued
  | .pushDelayed jobId runAtMs =>
      view.claim = .inserted jobId →
        view.All fun row => row.state = .queued ∧ row.runAt = runAtMs
  | .resetForReplay jobId =>
      view.claim = .replaying jobId → view.All fun row => row.state = .dead
  | .fetch request =>
      view.claim.Works request.jobId ∧
        (view.claim = .reserved request.jobId → view.read = false ∧
          view.All fun row => row.state = .inFlight)
  | _ => True

/-- What a call that took effect means for the row of the claim. -/
def Writes (view after : RowView) :
    (call : Call) → Except AppError call.Reply → Prop
  | .findJob jobId, .ok found =>
      view.claim = .reserved jobId → found = view.row.map JobRow.toJob ∧
        ∀ job, found = some job → job.state.Open → after.read = false
  | .updateState update, .ok _ =>
      view.claim = .reserved update.id → after.All fun row =>
        ∃ old now, view.row = some old ∧ row = update.apply now old
  | .resetForReplay jobId, .ok _ =>
      view.claim = .replaying jobId →
        after.All fun row => row.state = .queued
  | .insertJob _, .ok job =>
      after.All fun row => row.state = .queued ∧ row.runAt = job.runAt
  | .brpoplpush, .ok (some _) =>
      after.All fun row => row.state = .dead → claimsDead
  | .zaddLease jobId _, .ok _ =>
      view.claim = .popped jobId → after.row = view.row
  | .popDlq, .ok (some _) => after.All fun row => row.state = .dead
  | _, _ => True

end RowView

/-- A process sees its claim and the row of the claimed job. -/
abbrev rowDiscipline (claimsDead : Prop) :
    Discipline Call Call.Reply AppError where
  View := RowView
  Rely := RowView.Rely
  rely_refl _ := .inl ⟨rfl, fun _ => id, .inl⟩
  rely_trans := by
    rintro first second third (⟨same, kept, read⟩ | ⟨jobId, works, overruled⟩)
      (⟨same', kept', read'⟩ | ⟨jobId', works', overruled'⟩)
    · refine .inl ⟨same'.trans same,
        fun row found => kept _ (kept' _ found), fun later => ?_⟩
      rcases read' later with sooner | ⟨row, found, succeeded⟩
      · exact read sooner
      · exact .inr ⟨row, kept row found, succeeded⟩
    · exact .inr ⟨jobId', same ▸ works', overruled'⟩
    · exact .inr ⟨jobId, works, same'.trans overruled⟩
    · have about := works'.job?
      rw [overruled] at about
      cases about
      exact .inr ⟨jobId, works, overruled'⟩
  Allowed := RowView.Permits claimsDead
  Fallible _ _ := True
  Effect view call outcome after :=
    after.claim = view.claim.after call outcome ∧ call.Answers outcome ∧
      (call.inert → after.row = view.row) ∧
      (call.spares → call.reads = false → after.read = view.read) ∧
      view.Writes claimsDead after call outcome
  lost view := match view.claim with
    | .popped _ => ⟨.none, none, false⟩
    | _ => view

namespace RowDiscipline

/-- The row has a property, and if the job has been read as succeeded then
succeeded rows can have it. -/
structure Knows (property : JobRow → Prop) (view : RowView) : Prop where
  all : view.All property
  read : view.read → ∃ row, row.state = .succeeded ∧ property row

/-- A worker whose claim is in force and whose row has a property, or a
worker that the reaper has overruled. -/
def Owner (jobId : JobId) (property : JobRow → Prop) (view : RowView) : Prop :=
  view.claim = .reserved jobId ∧ Knows property view ∨
    view.claim = .superseded jobId

variable {claimsDead : Prop} {jobId : JobId} {property : JobRow → Prop}
  {view : RowView} {Value Next : Type} {program : Async Value}

theorem Knows.unread (knows : Knows property view)
    (unfinished : ∀ row, property row → row.state ≠ .succeeded) :
    view.read = false := by
  by_contra read
  obtain ⟨row, succeeded, holds⟩ :=
    knows.read (Bool.eq_true_of_not_eq_false read)
  exact unfinished row holds succeeded

theorem Owner.rely {now : RowView} (owner : Owner jobId property view)
    (rely : view.Rely now) : Owner jobId property now := by
  rcases rely with ⟨same, kept, read⟩ | ⟨id, works, overruled⟩
  · rw [Owner, same]
    refine owner.imp_left fun reserved => ⟨reserved.1, ?_, fun later => ?_⟩
    · exact fun row found => reserved.2.all row (kept row found)
    · rcases read later with sooner | ⟨row, found, succeeded⟩
      · exact reserved.2.read sooner
      · exact ⟨row, succeeded, reserved.2.all row found⟩
  · right
    have about := works.job?
    rcases owner with ⟨reserved, _⟩ | superseded
    · rw [reserved] at about
      cases about
      exact overruled
    · rw [superseded] at about
      cases about
      exact overruled

theorem Owner.works (owner : Owner jobId property view) :
    view.claim.Works jobId :=
  owner.imp_left And.left

theorem Owner.lost (owner : Owner jobId property view) :
    (rowDiscipline claimsDead).lost view = view := by
  have unpopped : ∀ id, view.claim ≠ .popped id := by
    intro id popped
    have about := owner.works
    rw [popped] at about
    rcases about with same | same <;> cases same
  show (match view.claim with
    | .popped _ => (⟨.none, none, false⟩ : RowView)
    | _ => view) = view
  split
  next id popped => exact absurd popped (unpopped id)
  · rfl

/-- Some succeeded row. -/
private def succeededRow : JobRow :=
  { (default : JobRow) with state := .succeeded }

/-- A process with a claim the reaper has no say in, whose row has a
property. -/
def Holding (claim : Claim) (property : JobRow → Prop) (view : RowView) :
    Prop :=
  view.claim = claim ∧ view.All property

theorem Holding.rely {claim : Claim} {now : RowView}
    (holding : Holding claim property view)
    (unleased : ∀ id, ¬claim.Works id) (rely : view.Rely now) :
    Holding claim property now := by
  rcases rely with ⟨same, kept, _⟩ | ⟨id, works, _⟩
  · exact ⟨same.trans holding.1,
      fun row found => holding.2 row (kept row found)⟩
  · exact absurd (holding.1 ▸ works) (unleased id)

/-- Any end is fine. -/
abbrev Ends (_ : RowView) (_ : Except AppError Value) : Prop := True

/-- A program of inert calls leaves the worker and its row alone. -/
theorem follows_inert
    (within : program.Within fun call => (call.inert ∧ call.reads = false) ∧
      ∀ {view}, Owner jobId property view → view.Permits claimsDead call)
    (owner : Owner jobId property view) :
    (rowDiscipline claimsDead).Follows (fun now _ => Owner jobId property now) program
      view := by
  refine Follows.of_within (Owner jobId property) within Owner.rely
    (fun owner permitted => permitted.2 owner) ?_ ?_
    (fun _ _ owner => owner) owner
  · intro view owner
    rw [owner.lost]
    exact owner
  · rintro view call outcome after owner ⟨⟨inert, unread⟩, _⟩
      ⟨claim, _, kept, read, _⟩
    have spares : call.spares := by
      cases call <;> first | rfl | exact inert
    rw [Claim.after_of_spares _ spares] at claim
    have same : after = view := by
      cases after
      cases view
      simp only at claim kept read
      rw [claim, kept inert, read spares unread]
    rw [same]
    exact owner

theorem gates_follow (owner : Owner jobId property view)
    (within : program.Within fun call => call.gates) :
    (rowDiscipline claimsDead).Follows (fun now _ => Owner jobId property now) program
      view := by
  refine follows_inert (within.mono fun call gates => ?_) owner
  refine ⟨⟨Call.inert_of_gates gates, ?_⟩, fun _ => ?_⟩
  · cases call <;> first | rfl | cases gates
  · cases call <;> trivial

theorem now_follows (owner : Owner jobId property view) :
    (rowDiscipline claimsDead).Follows (fun now _ => Owner jobId property now)
      (await .now) view :=
  gates_follow owner (Within.perform rfl)

/-- A delivery leaves the row alone, which says `in_flight` all the while. -/
theorem deliver_follows {deployment : Deployment} {job : Job}
    {webhookUrl secret : String} (own : job.id = jobId)
    (inFlight : ∀ row, property row → row.state = .inFlight)
    (owner : Owner jobId property view) :
    (rowDiscipline claimsDead).Follows (fun now _ => Owner jobId property now)
      (DeliveryService.deliver deployment job webhookUrl secret) view := by
  refine follows_inert ((deliver_within _ _ _ _).mono fun call delivers => ?_)
    owner
  refine ⟨⟨Call.inert_of_delivers delivers, ?_⟩, fun {view} owner => ?_⟩
  · cases call <;> first | rfl | cases delivers
  cases call with
  | fetch request =>
      have same : request.jobId = job.id := of_decide_eq_true delivers
      rw [RowView.Permits, same, own]
      refine ⟨owner.works, fun reserved => ?_⟩
      rcases owner with ⟨_, knows⟩ | superseded
      · refine ⟨knows.unread fun row holds => ?_, fun row found =>
          inFlight row (knows.all row found)⟩
        rw [inFlight row holds]
        decide
      · rw [reserved] at superseded
        cases superseded
  | _ => trivial

/-- Sequencing after a program that keeps the row known. -/
theorem follows_then {rest : Value → Async Next}
    (first : (rowDiscipline claimsDead).Follows (fun now _ => Owner jobId property now)
      program view)
    (second : ∀ value now, Owner jobId property now →
      (rowDiscipline claimsDead).Follows Ends (rest value) now) :
    (rowDiscipline claimsDead).Follows Ends (program.bind rest) view := by
  refine Follows.bind (first.mono ?_)
  rintro now (failure | value) owner
  · trivial
  · exact second value now owner

theorem ends_throw {failure : AppError} :
    (rowDiscipline claimsDead).Follows Ends (.throw failure : Async Value) view :=
  fun _ _ => trivial

/-- One call, after which all that matters is what it has done. -/
theorem follows_await {post : RowView → Except AppError Next → Prop}
    {call : Call} {rest : call.Reply → Async Next}
    (fails : ∀ now failure, post now (.error failure))
    (permits : ∀ now, view.Rely now → now.Permits claimsDead call)
    (replied : ∀ now after reply, view.Rely now →
      (rowDiscipline claimsDead).Effect now call (.ok reply) after →
        (rowDiscipline claimsDead).Follows post (rest reply) after) :
    (rowDiscipline claimsDead).Follows post ((await call).bind rest) view := by
  have throws : ∀ failure (now : RowView),
      (rowDiscipline claimsDead).Follows post (.throw failure : Async Next) now :=
    fun failure _ later _ => fails later failure
  intro now rely
  refine ⟨permits now rely, fun _ failure => throws failure _, ?_⟩
  intro outcome after effect
  refine ⟨fun _ failure => throws failure _,
    fun failure _ => throws failure _, ?_⟩
  rintro reply rfl
  exact replied now after reply rely effect

/-- The last call of a program. -/
theorem follows_last {call : Call}
    (permits : ∀ now, view.Rely now → now.Permits claimsDead call) :
    (rowDiscipline claimsDead).Follows Ends (await call) view := by
  intro now rely
  exact ⟨permits now rely, fun _ _ => ends_throw, fun _ _ _ =>
    ⟨fun _ _ => ends_throw, fun _ _ => ends_throw, fun _ _ _ _ => trivial⟩⟩

/-- An update of the worker's own row, which the guard has let by. -/
theorem update_follows {update : StateUpdate} (written : JobRow → Prop)
    {rest : Option Job → Async Next} (own : update.id = jobId)
    (owner : Owner jobId property view)
    (guarded : ∀ row, property row → row.state.Open ∧
      (update.state.Open → update.incrementAttempts →
        row.attempts + 1 < row.maxAttempts))
    (writes : ∀ row now, property row → written (update.apply now row))
    (continues : ∀ found now, Owner jobId written now →
      (rowDiscipline claimsDead).Follows Ends (rest found) now) :
    (rowDiscipline claimsDead).Follows Ends
      ((JobRepository.updateState update).bind rest) view := by
  subst own
  refine follows_await (fun _ _ => trivial) ?_ ?_
  · intro now rely reserved row found
    rcases owner.rely rely with ⟨_, knows⟩ | superseded
    · exact guarded row (knows.all row found)
    · rw [reserved] at superseded
      cases superseded
  · rintro now after reply rely ⟨claim, _, _, read, written'⟩
    apply continues reply after
    rcases owner.rely rely with ⟨reserved, knows⟩ | superseded
    · have unread := knows.unread fun row holds succeeded =>
        (guarded row holds).1 (.inl succeeded)
      refine .inl ⟨claim.trans (by rw [reserved]; rfl), ?_, ?_⟩
      · intro row found
        obtain ⟨old, writtenAt, was, rfl⟩ := written' reserved row found
        exact writes old writtenAt (knows.all old was)
      · rw [read rfl rfl, unread]
        exact fun never => nomatch never
    · exact .inr (claim.trans (by rw [superseded]; rfl))

/-! ## The worker -/

theorem ack_follows (owner : Owner jobId property view)
    (closed : ∀ row, property row →
      row.state = .succeeded ∨ row.state = .dead ∧ claimsDead) :
    (rowDiscipline claimsDead).Follows Ends (Queue.ack jobId) view := by
  refine follows_last fun now rely reserved row found => ?_
  rcases owner.rely rely with ⟨_, knows⟩ | superseded
  · exact closed row (knows.all row found)
  · rw [reserved] at superseded
    cases superseded

theorem retryLater_follows {runAtMs : Int}
    (owner : Owner jobId property view)
    (queued : ∀ row, property row →
      row.state = .queued ∧ row.runAt = runAtMs) :
    (rowDiscipline claimsDead).Follows Ends (Queue.retryLater jobId runAtMs) view := by
  refine follows_last fun now rely reserved row found => ?_
  rcases owner.rely rely with ⟨_, knows⟩ | superseded
  · exact queued row (knows.all row found)
  · rw [reserved] at superseded
    cases superseded

theorem deadLetter_follows (owner : Owner jobId property view)
    (dead : ∀ row, property row → row.state = .dead) :
    (rowDiscipline claimsDead).Follows Ends (Queue.deadLetter jobId) view := by
  refine follows_last fun now rely reserved row found => ?_
  rcases owner.rely rely with ⟨_, knows⟩ | superseded
  · exact dead row (knows.all row found)
  · rw [reserved] at superseded
    cases superseded

theorem deferUntil_follows {job : Job} {runAtMs : Int}
    (own : job.id = jobId) (owner : Owner jobId property view)
    (guarded : ∀ row, property row → row.state.Open) :
    (rowDiscipline claimsDead).Follows Ends
      (JobService.deferUntil jobId job runAtMs) view := by
  refine update_follows
    (fun row => row.state = .queued ∧ row.runAt = runAtMs) own owner ?_ ?_
    fun _ _ owner => retryLater_follows owner fun _ => id
  · exact fun row holds => ⟨guarded row holds, fun _ never => nomatch never⟩
  · exact fun row now _ => ⟨rfl, rfl⟩

/-- The row between the two updates of a delivery. -/
def InFlight (job : Job) (row : JobRow) : Prop :=
  row.state = .inFlight ∧ row.attempts = job.attempts ∧
    row.maxAttempts = job.maxAttempts

theorem InFlight.open {job : Job} {row : JobRow} (inFlight : InFlight job row) :
    row.state.Open := by
  rw [JobState.Open, inFlight.1]
  decide

theorem settle_follows {deployment : Deployment} {job : Job}
    {result : DeliveryService.DeliveryResult} (own : job.id = jobId)
    (owner : Owner jobId (InFlight job) view) :
    (rowDiscipline claimsDead).Follows Ends
      (JobService.settle deployment jobId job result) view := by
  unfold JobService.settle
  split
  · apply follows_then (gates_follow owner (recordSuccess_within _))
    intro _ _ owner
    refine update_follows (fun row => row.state = .succeeded) own owner ?_ ?_
      fun _ _ owner => ack_follows owner ?_
    · exact fun row holds =>
        ⟨holds.open, fun open_ => absurd (.inl rfl) open_⟩
    · exact fun row now _ => rfl
    · exact fun row => .inl
  · apply follows_then (gates_follow owner (recordFailure_within _ _))
    intro _ _ owner
    dsimp only
    split
    · refine update_follows (fun row => row.state = .dead) own owner ?_ ?_
        fun _ _ owner => deadLetter_follows owner fun _ => id
      · exact fun row holds =>
          ⟨holds.open, fun open_ => absurd (.inr rfl) open_⟩
      · exact fun row now _ => rfl
    next attemptsLeft =>
      apply follows_then (gates_follow owner (backoffMs_within _))
      intro delayMs _ owner
      apply follows_then (now_follows owner)
      intro now _ owner
      refine update_follows
        (fun row => row.state = .queued ∧ row.runAt = now + delayMs) own owner
        ?_ ?_ fun _ _ owner => retryLater_follows owner fun _ => id
      · intro row holds
        refine ⟨holds.open, fun _ _ => ?_⟩
        rw [holds.2.1, holds.2.2]
        simp only [Bool.or_eq_true, decide_eq_true_eq, not_or] at attemptsLeft
        omega
      · exact fun row now _ => ⟨rfl, rfl⟩

theorem deliverJob_follows {deployment : Deployment} {job : Job}
    (own : job.id = jobId)
    (owner : Owner jobId (fun row => row.toJob = job) view)
    (open_ : job.state.Open) :
    (rowDiscipline claimsDead).Follows Ends
      (JobService.deliverJob deployment jobId job) view := by
  refine update_follows (InFlight job) own owner ?_ ?_ ?_
  · rintro row rfl
    exact ⟨open_, fun _ never => nomatch never⟩
  · rintro row now rfl
    exact ⟨rfl, rfl, rfl⟩
  intro _ _ owner
  apply follows_then (gates_follow owner (getById_within _))
  intro webhook _ owner
  apply follows_then (gates_follow owner (getSecret_within _))
  intro secret _ owner
  refine follows_then (deliver_follows own (fun _ => And.left) owner) ?_
  exact fun _ _ owner => settle_follows own owner

/-- What a worker knows of a job it has just claimed. -/
abbrev Claimed (claimsDead : Prop) (row : JobRow) : Prop :=
  row.state = .dead → claimsDead

theorem process_follows {deployment : Deployment}
    (owner : Owner jobId (Claimed claimsDead) view) :
    (rowDiscipline claimsDead).Follows Ends
      (JobService.process deployment jobId) view := by
  refine follows_await (fun _ _ => trivial) (fun _ _ => trivial) ?_
  rintro now after found rely ⟨claim, answers, kept, _, reads⟩
  have known : Owner jobId
      (fun row => found = some row.toJob ∧ Claimed claimsDead row ∨
        row.state = .succeeded ∧
          ∀ job, found = some job → ¬job.state.Open) after := by
    rcases owner.rely rely with ⟨reserved, knows⟩ | superseded
    · obtain ⟨found, unread⟩ := reads reserved
      refine .inl ⟨claim.trans (by rw [reserved]; rfl), ?_, ?_⟩
      · intro row is
        rw [kept rfl] at is
        rw [found, is]
        exact .inl ⟨rfl, knows.all row is⟩
      · intro read
        refine ⟨succeededRow, rfl, .inr ⟨rfl, fun job is open_ => ?_⟩⟩
        rw [unread job is open_] at read
        cases read
    · exact .inr (claim.trans (by rw [superseded]; rfl))
  cases found with
  | none =>
      apply ack_follows known
      rintro row (⟨never, _⟩ | ⟨succeeded, _⟩)
      · cases never
      · exact .inl succeeded
  | some job =>
      have own : job.id = jobId := answers
      show (rowDiscipline claimsDead).Follows Ends (ite _ _ _) after
      split
      next closed =>
        apply ack_follows known
        rintro row (⟨same, claimed⟩ | ⟨succeeded, _⟩)
        · cases same
          exact closed.imp_right fun dead => ⟨dead, claimed dead⟩
        · exact .inl succeeded
      next open_ =>
        have owner : Owner jobId (fun row => row.toJob = job) after :=
          known.imp_left fun known => ⟨known.1,
            fun row is => (known.2.all row is).elim
              (fun same => (Option.some.inj same.1).symm)
              fun finished => absurd open_ (finished.2 job rfl),
            fun read => by
              obtain ⟨row, succeeded, ⟨same, _⟩ | ⟨_, closed⟩⟩ :=
                known.2.read read
              · exact ⟨row, succeeded, (Option.some.inj same).symm⟩
              · exact absurd open_ (closed job rfl)⟩
        have guarded : ∀ row : JobRow, row.toJob = job → row.state.Open := by
          rintro row rfl
          exact open_
        apply follows_then (gates_follow owner (check_within _ _))
        intro circuitState _ owner
        split
        · apply follows_then (now_follows owner)
          exact fun _ _ owner => deferUntil_follows own owner guarded
        apply follows_then (gates_follow owner (take_within _ _ _ _))
        intro rate _ owner
        split
        · apply follows_then (now_follows owner)
          exact fun _ _ owner => deferUntil_follows own owner guarded
        · exact deliverJob_follows own owner open_

theorem reserve_follows :
    (rowDiscipline claimsDead).Follows
      (fun now outcome => ∀ jobId, outcome = .ok (some jobId) →
        Owner jobId (Claimed claimsDead) now) Queue.reserve view := by
  have fails : ∀ (now : RowView) (failure : AppError),
      ∀ jobId, (.error failure : Except AppError (Option JobId)) =
        .ok (some jobId) → Owner jobId (Claimed claimsDead) now :=
    fun _ _ _ same => nomatch same
  have unleased : ∀ jobId id, ¬(Claim.popped jobId).Works id := by
    rintro jobId id (same | same) <;> cases same
  refine follows_await fails (fun _ _ => trivial) ?_
  rintro now after (_ | jobId) rely ⟨claim, _, _, _, writes⟩
  · exact fun _ _ _ same => nomatch same
  have popped : Holding (.popped jobId) (Claimed claimsDead) after :=
    ⟨claim, writes⟩
  refine follows_await fails (fun _ _ => trivial) ?_
  rintro now' after' time rely' ⟨claim', _, kept', _⟩
  have popped' : Holding (.popped jobId) (Claimed claimsDead) after' := by
    have still := popped.rely (unleased jobId) rely'
    refine ⟨claim'.trans still.1, ?_⟩
    rw [RowView.All, kept' rfl]
    exact still.2
  refine follows_await fails (fun _ _ => trivial) ?_
  rintro now'' after'' _ rely'' ⟨claim'', _, _, _, leased⟩
  have still := popped'.rely (unleased jobId) rely''
  have owner : Owner jobId (Claimed claimsDead) after'' := by
    refine .inl ⟨claim'', fun row found => still.2 row ?_, fun _ =>
      ⟨succeededRow, rfl, fun never => nomatch never⟩⟩
    rwa [leased still.1] at found
  intro last relyLast id same
  cases same
  exact owner.rely relyLast

theorem consume_follows (deployment : Deployment) :
    (rowDiscipline claimsDead).Follows Ends (Worker.consume deployment) view := by
  refine Follows.bind (Follows.attempt (reserve_follows.mono ?_))
  rintro now (failure | _ | jobId) owner
  · exact fun _ _ => trivial
  · exact fun _ _ => trivial
  refine Follows.tryCatch ((process_follows (owner jobId rfl)).mono ?_)
  rintro later (failure | value) _
  · exact fun _ _ => trivial
  · trivial

/-! ## Enqueue and replay -/

/-- Calls that need nothing of the row. -/
def free (call : Call) : Bool :=
  match call with
  | .findJob _ => true
  | call => call.gates || call.slots

theorem free_follow (within : program.Within fun call => free call)
    {rest : Value → Async Next}
    (second : ∀ value now, (rowDiscipline claimsDead).Follows Ends (rest value) now) :
    (rowDiscipline claimsDead).Follows Ends (program.bind rest) view := by
  apply Follows.bind
  refine Follows.of_within (fun _ => True) within (fun _ _ => trivial) ?_
    (fun _ => trivial) (fun _ _ _ => trivial) ?_ trivial
  · intro view call _ permitted
    cases call <;> trivial
  · rintro now (failure | value) _
    · trivial
    · exact second value now

theorem free_of_gates {call : Call} (gates : call.gates) : free call := by
  cases call <;> first | rfl | exact gates

theorem free_of_slots {call : Call} (slots : call.slots) : free call := by
  cases call <;> first | rfl | cases slots

/-- The row of a job just inserted. -/
abbrev Inserted (job : Job) : RowView → Prop :=
  Holding (.inserted job.id) fun row =>
    row.state = .queued ∧ row.runAt = job.runAt

theorem unleased_inserted (jobId id : JobId) :
    ¬(Claim.inserted jobId).Works id := by
  rintro (same | same) <;> cases same

theorem place_follows {job : Job} (inserted : Inserted job view) (now : Int) :
    (rowDiscipline claimsDead).Follows Ends (JobService.place job now) view := by
  unfold JobService.place
  split
  · exact follows_last fun _ rely _ =>
      (inserted.rely (unleased_inserted _) rely).2
  · exact follows_last fun _ rely _ row found =>
      ((inserted.rely (unleased_inserted _) rely).2 row found).1

theorem createJob_follows (input : EnqueueInput) :
    (rowDiscipline claimsDead).Follows Ends (JobService.createJob input) view := by
  refine follows_await (fun _ _ => trivial) (fun _ _ => trivial) ?_
  rintro _ after job _ ⟨claim, _, _, _, writes⟩
  have inserted : Inserted job after := ⟨claim, writes⟩
  refine follows_await (fun _ _ => trivial) (fun _ _ => trivial) ?_
  rintro later after' now rely ⟨claim', _, kept, _⟩
  have insertedLater := inserted.rely (unleased_inserted _) rely
  have insertedNow : Inserted job after' := by
    refine ⟨claim'.trans insertedLater.1, ?_⟩
    rw [RowView.All, kept rfl]
    exact insertedLater.2
  refine Follows.bind ((place_follows insertedNow now).mono ?_)
  rintro last (failure | _) _
  · trivial
  · exact free_follow ((resolveSlot_within _ _).mono fun _ => free_of_slots)
      fun _ _ _ _ => trivial

theorem createOrAbort_follows (input : EnqueueInput) :
    (rowDiscipline claimsDead).Follows Ends (JobService.createOrAbort input) view := by
  refine Follows.tryCatch ((createJob_follows input).mono ?_)
  rintro now (failure | job) _
  · exact free_follow ((releaseSlot_within _).mono fun _ => free_of_slots)
      fun _ _ => ends_throw
  · trivial

theorem enqueue_follows (input : EnqueueInput) :
    (rowDiscipline claimsDead).Follows Ends (JobService.enqueue input) view := by
  refine free_follow ((getOwnedBy_within _ _).mono fun _ => free_of_gates) ?_
  intro webhook _
  split
  · exact ends_throw
  split
  · exact createOrAbort_follows input
  refine free_follow ((begin_within _ _).mono fun _ => free_of_slots) ?_
  rintro (_ | jobId | _) now
  · exact createOrAbort_follows input
  · apply free_follow (@Within.perform Call _ _ _ (.findJob jobId) rfl)
    rintro (_ | existing) now
    · exact createOrAbort_follows input
    · exact fun _ _ => trivial
  · exact ends_throw

/-- The row of a job taken from the dead-letter queue. -/
abbrev Replaying (jobId : JobId) (state : JobState) : RowView → Prop :=
  Holding (.replaying jobId) fun row => row.state = state

theorem unleased_replaying (jobId id : JobId) :
    ¬(Claim.replaying jobId).Works id := by
  rintro (same | same) <;> cases same

theorem replayLoop_follows (limit : Nat) (replayed : List JobId) :
    (rowDiscipline claimsDead).Follows Ends (JobService.replayLoop limit replayed)
      view := by
  induction limit generalizing replayed view with
  | zero => exact fun _ _ => trivial
  | succ limit ih =>
      refine follows_await (fun _ _ => trivial) (fun _ _ => trivial) ?_
      rintro now after (_ | jobId) rely ⟨claim, _, _, _, writes⟩
      · exact fun _ _ => trivial
      have dead : Replaying jobId .dead after := ⟨claim, writes⟩
      refine follows_await (fun _ _ => trivial)
        (fun _ rely _ => (dead.rely (unleased_replaying jobId) rely).2) ?_
      rintro now' after' (_ | job) rely' ⟨claim', _, _, _, writes'⟩
      · exact ih replayed
      have reset := dead.rely (unleased_replaying jobId) rely'
      have queued : Replaying jobId .queued after' :=
        ⟨claim'.trans (by rw [reset.1]; rfl), writes' reset.1⟩
      refine follows_await (fun _ _ => trivial)
        (fun _ rely _ => (queued.rely (unleased_replaying jobId) rely).2) ?_
      exact fun _ _ _ _ _ => ih _

/-- Every process keeps to the row discipline from its start on. -/
theorem main_follows (deployment : Deployment) (role : Role) :
    (rowDiscipline claimsDead).Follows Ends (role.main deployment) view := by
  cases role with
  | enqueue input =>
      refine Follows.bind ((enqueue_follows input).mono ?_)
      rintro now (failure | job) _
      · trivial
      · exact fun _ _ => trivial
  | replay limit =>
      refine Follows.bind ((replayLoop_follows limit []).mono ?_)
      rintro now (failure | jobIds) _
      · trivial
      · exact fun _ _ => trivial
  | worker =>
      refine Follows.bind ((consume_follows deployment).mono ?_)
      rintro now (failure | done) _
      · trivial
      · exact fun _ _ => trivial

end RowDiscipline

end WebhookDelivery
