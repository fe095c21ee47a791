import WebhookDelivery.Copies
import WebhookDelivery.Recovery
import WebhookDelivery.Punctual
import WebhookDelivery.Slots

/-!
# Every job is in exactly one place

As long as no live worker outlives its lease and no process dies inside
`reserve` or `replay`, the queue structures hold one copy of every job at most,
and exactly one of every job that has been accepted and is not finished.
-/

namespace WebhookDelivery

open Concurrency

/-- Some request has been answered with the job. -/
def State.Accepted (state : State) (job : Job) : Prop :=
  ∃ pid process, state.processes pid = some process ∧
    process.status = .returned (.ok (.enqueued job))

/-- At most one copy of every job; a lease exactly on what is in `inflight`,
unless a worker is between the two commands of `reserve`; and one copy in
`ready`, `inflight` or `delayed` of every accepted job that is not finished and
that no replay holds. -/
structure ExactlyOnePlace (state : State) : Prop where
  once : ∀ jobId, (state.places jobId).copies ≤ 1
  leased : ∀ jobId, (∀ pid, state.claim pid ≠ .popped jobId) →
    ((state.store.redis.leases.score? jobId).isSome ↔
      jobId ∈ state.store.redis.inflight)
  kept : ∀ job row, state.Accepted job →
    state.store.db.jobs job.id = some row →
    row.state = .queued ∨ row.state = .inFlight →
    ¬state.Replaying job.id →
      let places := state.places job.id
      places.ready + places.inflight + places.delayed = 1

/-- Steps in which no process dies inside `reserve` or `replay`, no call fails
and no reply gets lost there, and the reaper meets no lease of a worker that
still works on its job. -/
def Tolerated (state : State) (action : Action) : Prop :=
  ¬DropsPopped state action ∧ ¬BreaksReplay state action ∧
    ¬Overrules state action

/-- Custody and rows in order, and every job that has been placed is retained
until it is finished. -/
structure OnePlaceInvariant (state : State) : Prop where
  rows : RowInvariant True state
  replaysOn : state.ReplaysOn
  trace : TraceInvariant False state
  unoverruled : state.Unoverruled
  guarded : ∀ jobId, state.Guarded True jobId
  issued : ∀ {jobId}, did state.history Event.placed? jobId →
    jobId ∈ state.store.db.issued
  retained : ∀ {jobId row}, did state.history Event.placed? jobId →
    state.store.db.jobs jobId = some row → row.state.Open →
      state.Retained jobId
  resolved : ∀ {slot jobId}, state.slot slot = some (.job jobId) ∨
    did state.history Event.slotRead? (slot, jobId) →
      did state.history Event.placed? jobId

variable {deployment : Deployment} {before after : State} {action : Action}

namespace OnePlaceInvariant

theorem initial : OnePlaceInvariant State.initial where
  rows := .initial
  replaysOn := .initial
  trace := .initial
  unoverruled := .initial
  guarded _ := .inl rfl
  issued done := (did_nil _ _ done).elim
  retained done := (did_nil _ _ done).elim
  resolved read := by
    rcases read with value | done
    · cases value
    · exact (did_nil _ _ done).elim

/-- The two calls that place a job put a copy of it into the queue. -/
private theorem places_of_placed {pid : Pid} {choice : Choice} {call : Call}
    {store : Store} {jobId : JobId}
    (places : Event.placed? ⟨pid, call,
      (exec deployment choice call store).1⟩ = some jobId) :
    ((∃ time, call = .pushDelayed jobId time) ∨ call = .push jobId) ∧
      0 < ((exec deployment choice call store).2.redis.places jobId).copies := by
  rw [exec_places]
  cases call with
  | push id =>
      cases places
      refine ⟨.inr rfl, ?_⟩
      simp only [Call.moves, Places.copies, if_true]
      omega
  | pushDelayed id time =>
      cases places
      refine ⟨.inl ⟨time, rfl⟩, ?_⟩
      simp only [Call.moves, Places.copies, if_true]
      omega
  | _ => cases places

private theorem issued_of_step (invariant : OnePlaceInvariant before)
    (taken : WebhookDelivery.step deployment before action = some after)
    {jobId : JobId} (placed : did after.history Event.placed? jobId) :
    jobId ∈ after.store.db.issued := by
  obtain ⟨pid, placed⟩ := did_history_iff.mp placed
  have custody := invariant.rows.queue.custody jobId
  rcases did_of_step taken placed with
    earlier | ⟨choice, call, _, pending, _, places⟩
  · exact WebhookDelivery.issued_of_step taken
      (invariant.issued (did_history_iff.mpr ⟨pid, earlier⟩))
  · have permits := invariant.rows.queue.permits pending
    apply WebhookDelivery.issued_of_step taken
    rcases (places_of_placed places).1 with ⟨time, rfl⟩ | rfl
    · have inserted : before.claim pid = .inserted jobId := permits
      exact custody.issued_of_claim (by rw [inserted]; rfl)
    · rcases permits with inserted | replaying
      · exact custody.issued_of_claim (by rw [inserted]; rfl)
      · exact custody.issued_of_claim (by rw [replaying]; rfl)

private theorem retained_of_placed (invariant : OnePlaceInvariant before)
    (unbroken : ¬BreaksReplay before action)
    (taken : WebhookDelivery.step deployment before action = some after)
    {jobId : JobId} {row : JobRow}
    (placed : did after.history Event.placed? jobId)
    (stored : after.store.db.jobs jobId = some row)
    (open_ : row.state.Open) : after.Retained jobId := by
  obtain ⟨pid, placed⟩ := did_history_iff.mp placed
  rcases did_of_step taken placed with
    earlier | ⟨choice, call, _, _, store, places⟩
  · have placedBefore := did_history_iff.mpr ⟨pid, earlier⟩
    refine retained_of_step invariant.rows invariant.replaysOn
      (invariant.unoverruled.quiet action) unbroken taken stored
      (fun _ => invariant.issued placedBefore)
      (fun was => invariant.retained placedBefore was open_) ?_
    rintro (succeeded | ⟨dead, _⟩)
    · exact open_ (.inl succeeded)
    · exact open_ (.inr dead)
  · right
    rw [State.places, store]
    exact (places_of_placed places).2

private theorem resolved_of_step (invariant : OnePlaceInvariant before)
    (taken : WebhookDelivery.step deployment before action = some after)
    {slot : String} {jobId : JobId}
    (read : after.slot slot = some (.job jobId) ∨
      did after.history Event.slotRead? (slot, jobId)) :
    did after.history Event.placed? jobId := by
  rcases read with value | done
  · rcases WebhookDelivery.resolved_of_step taken value with
      earlier | ⟨pid, _, pending⟩
    · exact did_history_mono taken (invariant.resolved (.inl earlier))
    · obtain ⟨role, _, allows⟩ := invariant.trace.allows pending
      cases role with
      | enqueue input =>
          obtain ⟨_, _, _, _, placed, _⟩ := allows
          exact did_history_mono taken (did_history_iff.mpr ⟨pid, placed⟩)
      | worker => cases allows
      | replay limit => cases allows
  · obtain ⟨pid, done⟩ := did_history_iff.mp done
    rcases did_of_step taken done with
      earlier | ⟨choice, call, _, _, _, reads⟩
    · exact did_history_mono taken
        (invariant.resolved (.inr (did_history_iff.mpr ⟨pid, earlier⟩)))
    · exact did_history_mono taken
        (invariant.resolved (.inl (Event.slotRead?_exec reads)))

theorem step (invariant : OnePlaceInvariant before)
    (tolerated : Tolerated before action)
    (taken : WebhookDelivery.step deployment before action = some after) :
    OnePlaceInvariant after where
  rows := invariant.rows.step (invariant.unoverruled.quiet action)
    (fun _ => trivial) taken
  replaysOn := invariant.replaysOn.step tolerated.2.1 taken
  trace := invariant.trace.step False.elim taken
  unoverruled := invariant.unoverruled.step tolerated.2.2 taken
  guarded := guarded_step invariant.rows.queue
    (invariant.unoverruled.quiet action).1 tolerated.1 (fun _ => trivial)
    invariant.guarded taken
  issued := invariant.issued_of_step taken
  retained := invariant.retained_of_placed tolerated.2.1 taken
  resolved := invariant.resolved_of_step taken

/-- An accepted job has been placed. -/
theorem placed_of_accepted {state : State}
    (invariant : OnePlaceInvariant state) {job : Job}
    (accepted : state.Accepted job) :
    did state.history Event.placed? job.id := by
  obtain ⟨pid, process, found, returned⟩ := accepted
  obtain ⟨input, _, answered⟩ := invariant.trace.returned found returned
  rcases answered with ⟨_, placed, _⟩ | ⟨slot, _, read, _⟩
  · exact did_history_iff.mpr ⟨pid, placed⟩
  · exact invariant.resolved (.inr (did_history_iff.mpr ⟨pid, read⟩))

theorem exactlyOnePlace {state : State}
    (invariant : OnePlaceInvariant state) : ExactlyOnePlace state where
  once jobId := (invariant.rows.queue.custody jobId).sound.once
  leased jobId unpopped := by
    have sound := (invariant.rows.queue.custody jobId).sound
    have lease := sound.leased
    rw [← Redis.leases_eq_one_iff, Redis.mem_inflight_iff]
    change (state.places jobId).leases = 1 ↔
      0 < (state.places jobId).inflight
    rcases invariant.guarded jobId with none | leased | ⟨pid, process, found,
      popped, _⟩
    · omega
    · omega
    · rw [← State.claim_of_found found] at popped
      exact absurd popped (unpopped pid)
  kept job row accepted stored unfinished unreplayed := by
    have sound := (invariant.rows.queue.custody job.id).sound
    have once := sound.once
    have open_ : row.state.Open := by
      rcases unfinished with queued | inFlight
      · rw [queued]
        decide
      · rw [inFlight]
        decide
    have present := (invariant.retained
      (invariant.placed_of_accepted accepted) stored open_).resolve_left
        unreplayed
    have undead : ¬0 < (state.places job.id).dlq := fun dead =>
      open_ (.inr ((invariant.rows.agrees stored).dead dead))
    unfold Places.copies at once present
    dsimp only
    omega

end OnePlaceInvariant

/-- In every run of tolerated steps, every job is in exactly one place. -/
theorem exactly_one_place (deployment : Deployment) (actions : List Action)
    (tolerated : ∀ transition ∈
      transitions (step deployment) State.initial actions,
        Tolerated transition.before transition.action) :
    ∀ transition ∈ transitions (step deployment) State.initial actions,
      ExactlyOnePlace transition.after := by
  intro transition member
  obtain ⟨_, after⟩ := invariant_of_transitions OnePlaceInvariant
    (fun _ _ _ invariant tolerated taken => invariant.step tolerated taken)
    .initial tolerated transition member
  exact after.exactlyOnePlace

/-- Worker 1 crashes while it delivers a job; the reaper returns the job, and
worker 2 fails to deliver it and puts it off. -/
def crashedInDelivery : List Action :=
  enqueueOne ++ .start 1 .worker :: calls 1 14 ++
    [.crash 1, .reap 60000 100] ++ deliverOnce 2 500 9

theorem exactly_one_place_crashedInDelivery :
    (run (step {}) State.initial crashedInDelivery).isSome ∧
      ∀ transition ∈ transitions (step {}) State.initial crashedInDelivery,
        ExactlyOnePlace transition.after := by
  have punctual := @punctual_of_history {} crashedInDelivery
    (by decide +kernel)
  have unbroken : ∀ transition ∈
      transitions (step {}) State.initial crashedInDelivery,
        ¬DropsPopped transition.before transition.action ∧
          ¬BreaksReplay transition.before transition.action := by
    decide +kernel
  have placed := exactly_one_place {} crashedInDelivery
    fun transition member => ⟨(unbroken transition member).1,
      (unbroken transition member).2, punctual transition member⟩
  exact ⟨by decide +kernel, placed⟩

end WebhookDelivery
