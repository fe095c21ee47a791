import WebhookDelivery.QueueInvariant

/-!
# Overruled claims

The release scripts look up a job by its id and do not ask who holds it.  A
worker that outlives its lease therefore releases whatever claim it finds.
This file says exactly which releases of an overruled worker are harmless.
-/

namespace WebhookDelivery

open Concurrency

/-- The claim on a job is left alone and no further copy of it appears. -/
def LeavesClaim (before after : Places) : Prop :=
  after.inflight = before.inflight ∧ after.leases = before.leases ∧
    after.copies ≤ before.copies

/-- No job occurs twice after the step, and if the step is the release of an
overruled worker, it leaves the present claim on the job alone. -/
def Fenced (before : State) (action : Action) (after : State) : Prop :=
  (∀ jobId, (after.places jobId).copies ≤ 1) ∧
    ∀ release ∈ overruledRelease? before action,
      LeavesClaim (before.places release.1) (after.places release.1)

section

variable {deployment : Deployment} {before after : State} {action : Action}
  {jobId : JobId} {call : Call}

/-- An overruled release moves its job as its script says. -/
theorem places_of_overruledRelease?
    (release : overruledRelease? before action = some (jobId, call))
    (taken : step deployment before action = some after) :
    call.releases? = some jobId ∧ ∃ outcome : Except AppError call.Reply,
      after.places jobId = call.moves jobId (before.places jobId) outcome := by
  obtain ⟨pid, performs, pending, releases, _⟩ :=
    overruledRelease?_eq_some.mp release
  obtain ⟨choice, process, next, rescue, resumed, _, _, _, rfl⟩ :=
    performed_of_performer? taken performs pending
  exact ⟨releases, _, exec_places deployment choice call before.store jobId⟩

/-- A release script leaves the present claim alone exactly when it finds
nothing to release and no place for a further copy. -/
theorem leavesClaim_iff {places : Places} (sound : places.Sound)
    (delayed : places.delayed ≤ 1) (releases : call.releases? = some jobId)
    (outcome : Except AppError call.Reply) :
    LeavesClaim places (call.moves jobId places outcome) ↔
      call.FindsNothing places := by
  constructor
  · rintro ⟨inflight, _, copies⟩
    cases call <;> cases releases <;>
      simp only [Call.moves, Call.FindsNothing, Places.release,
        Places.copies, if_true] at inflight copies ⊢ <;> omega
  · intro nothing
    rw [Call.moves_of_findsNothing sound releases nothing]
    exact ⟨rfl, rfl, le_refl _⟩

end

/-- Along any run, jobs occur at most once and overruled releases leave the
present claim alone if and only if each overruled release finds nothing to
release: an `ack` no `inflight` entry, a `retryLater` no `inflight` entry and
the job already delayed, and a `deadLetter` never. -/
theorem fenced_iff_overruled_releases_find_nothing (deployment : Deployment)
    (actions : List Action) :
    (∀ transition ∈ transitions (step deployment) State.initial actions,
      Fenced transition.before transition.action transition.after) ↔
      ∀ transition ∈ transitions (step deployment) State.initial actions,
        Unharmed transition.before transition.action := by
  refine transitions_good_iff_exact QueueInvariant (fun _ _ => True)
    Unharmed Fenced ?_ ?_ QueueInvariant.initial (fun _ _ => trivial)
  · intro before action after invariant _ unharmed taken
    have invariantAfter := invariant.step unharmed taken
    refine ⟨invariantAfter,
      fun jobId => (invariantAfter.custody jobId).sound.once, ?_⟩
    rintro ⟨jobId, call⟩ release
    obtain ⟨releases, outcome, moved⟩ :=
      places_of_overruledRelease? release taken
    rw [moved]
    exact (leavesClaim_iff (invariant.custody jobId).sound
      (Redis.delayed_le_one _ _) releases outcome).mpr
      (unharmed _ release)
  · rintro before action after invariant _ taken fenced ⟨jobId, call⟩ release
    obtain ⟨releases, outcome, moved⟩ :=
      places_of_overruledRelease? release taken
    have leaves := fenced.2 _ release
    rw [moved] at leaves
    exact (leavesClaim_iff (invariant.custody jobId).sound
      (Redis.delayed_le_one _ _) releases outcome).mp leaves

/-! ## A worker slower than its lease -/

/-- `count` calls of a process, each answered by the default environment. -/
def calls (pid : Pid) (count : Nat) : List Action :=
  List.replicate count (.call pid {})

def exampleWebhook : WebhookRow where
  id := 1
  tenant := "acme"
  url := "https://acme.test/hook"
  secret := "s3cret"
  isActive := true

def exampleEvent : EnqueueInput where
  tenant := "acme"
  webhookId := 1
  eventType := "order.created"
  payload := "\x7b\x7d"

/-- Process 0 enqueues one event, whose job gets the id 2. -/
def enqueueOne : List Action :=
  [.registerWebhook exampleWebhook, .start 0 (.enqueue exampleEvent),
    .call 0 {}, .call 0 { uuid := 2 }] ++ calls 0 2

/-- A worker claims job 2, gets the response `status` for it and makes `rest`
more calls.  Its lease ends at 60000. -/
def deliverOnce (pid : Pid) (status rest : Nat) : List Action :=
  .start pid .worker :: calls pid 14 ++
    .call pid { response := .ok status } :: calls pid rest

/-- Worker 1 is about to run `retryLater` when its lease ends and worker 2
claims the job. -/
def outlivedLease : List Action :=
  enqueueOne ++ deliverOnce 1 500 8 ++
    [.reap 60000 100, .start 2 .worker] ++ calls 2 3

/-- The late `retryLater` of worker 1 removes the claim of worker 2. -/
theorem late_retryLater_removes_second_claim :
    ¬∀ actions,
      ∀ transition ∈ transitions (step {}) State.initial actions,
        Fenced transition.before transition.action transition.after := by
  intro fenced
  have evaluated : (run (step {}) State.initial outlivedLease).map
      (fun state => (overruledRelease? state (.call 1 {}), state.places 2)) =
        some (some (2, .retryLater 2 0),
          { ready := 0, inflight := 1, leases := 1, delayed := 0, dlq := 0 }) := by
    decide +kernel
  have evaluatedAfter : (run (step {}) State.initial
      (outlivedLease ++ [.call 1 {}])).map (fun state => state.places 2) =
        some { ready := 0, inflight := 0, leases := 0, delayed := 1, dlq := 0 } := by
    decide +kernel
  obtain ⟨⟨before, _, after⟩, member, rfl, atFirst, atLast⟩ :=
    exists_last_transition outlivedLease (.call 1 {}) _ _ evaluated
      evaluatedAfter
  simp only [Prod.mk.injEq] at atFirst atLast
  obtain ⟨release, places⟩ := atFirst
  have kept := ((fenced _ _ member).2 _ release).1
  rw [places, atLast] at kept
  cases kept

end WebhookDelivery
