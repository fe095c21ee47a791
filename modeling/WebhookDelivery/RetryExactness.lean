import WebhookDelivery.RetrySteps
import WebhookDelivery.Fencing

/-!
# Every job takes the course of the policy

In runs in which every store answers, no process dies and no worker is
overruled, the row, the records and the place of every job that nobody holds
are those which the retry policy prescribes.
-/

namespace WebhookDelivery

open Concurrency

/-- A steady run takes every job along its course. -/
theorem CourseInvariant.of_run {deployment : Deployment} {before : State}
    {courses : JobId → Course} {final : State} {actions : List Action}
    (invariant : CourseInvariant deployment courses before)
    (positive : 0 < deployment.maxAttempts)
    (runs : run (WebhookDelivery.step deployment) before actions = some final)
    (steady : ∀ transition ∈
      transitions (WebhookDelivery.step deployment) before actions,
        Steady deployment transition.before transition.action) :
    CourseInvariant deployment
      (fun jobId => (occurrences deployment jobId
        (transitions (WebhookDelivery.step deployment) before actions)).foldl
          (Course.next deployment.maxAttempts) (courses jobId)) final := by
  induction actions generalizing before courses with
  | nil =>
      cases runs
      exact invariant
  | cons action actions ih =>
      obtain ⟨next, taken, rest⟩ := Option.bind_eq_some_iff.mp runs
      rw [transitions_cons taken, List.forall_mem_cons] at steady
      rw [transitions_cons taken]
      have later := ih (invariant.step positive steady.1 taken) rest steady.2
      have same : ∀ jobId, (occurrences deployment jobId
          (⟨before, action, next⟩ :: transitions
            (WebhookDelivery.step deployment) next actions)).foldl
            (Course.next deployment.maxAttempts) (courses jobId) =
          (occurrences deployment jobId (transitions
            (WebhookDelivery.step deployment) next actions)).foldl
            (Course.next deployment.maxAttempts)
            (before.advance deployment action courses jobId) := by
        intro jobId
        simp only [occurrences, List.filterMap_cons, State.advance]
        cases occurrence? deployment jobId before action <;> rfl
      simp only [same]
      exact later

/-- The row of a job, its records and its places are those of its course. -/
structure State.OnCourse (state : State) (jobId : JobId) (row : JobRow)
    (course : Course) : Prop where
  attempts : row.attempts = course.attempts
  records : state.records jobId = course.records
  places : state.places jobId = course.position.places
  state : row.state = course.state

/-- In every steady run, every job that nobody holds has taken the course that
the policy prescribes for what has happened to it; its attempts are the
deliveries since its last reset, of which there are never more than its
budget. -/
theorem every_job_on_course (deployment : Deployment)
    (positive : 0 < deployment.maxAttempts) (actions : List Action)
    (steady : ∀ transition ∈
      transitions (step deployment) State.initial actions,
        Steady deployment transition.before transition.action)
    (state : State) (runs : run (step deployment) State.initial actions =
      some state)
    (jobId : JobId) (row : JobRow)
    (stored : state.store.db.jobs jobId = some row) :
    let happened := occurrences deployment jobId
      (transitions (step deployment) State.initial actions)
    Occurrence.deliveriesSinceReset happened ≤ row.maxAttempts ∧
      (state.Unheld jobId →
        row.attempts = Occurrence.deliveriesSinceReset happened ∧
          state.OnCourse jobId row
            (Course.after row.maxAttempts happened)) := by
  have invariant := CourseInvariant.initial.of_run positive runs steady
  obtain ⟨within, limit⟩ := invariant.within stored
  rw [limit]
  have counted := @Course.after_attempts deployment.maxAttempts
    (occurrences deployment jobId
      (transitions (step deployment) State.initial actions))
  refine ⟨counted ▸ within, fun unheld => ?_⟩
  obtain ⟨position, tallies, places⟩ := invariant.tallies stored unheld
  refine ⟨tallies.attempts.trans counted, tallies.attempts, tallies.records,
    ?_, tallies.state⟩
  rw [places, ← tallies.position]
  rfl

/-- A process makes calls at a given time. -/
def callsAt (now : Int) (pid : Pid) (count : Nat) : List Action :=
  List.replicate count (.call pid { now := now })

/-- Two attempts, and a breaker that opens at the first failure. -/
def hasty : Deployment :=
  { maxAttempts := 2, failureThreshold := 1, cooldownMs := 10 }

/-- A job with two attempts fails, is put off by the breaker, fails again, is
replayed and succeeds. -/
def replayedInTheEnd : List Action :=
  enqueueOne ++ deliverOnce 1 500 9 ++ .promote 100000 10 ::
    .start 2 .worker :: callsAt 5 2 9 ++ .promote 100000 10 ::
    .start 3 .worker :: callsAt 50 3 14 ++
      .call 3 { response := .ok 500 } :: callsAt 50 3 7 ++
    .start 4 (.replay 1) :: callsAt 60 4 3 ++
    .start 5 .worker :: callsAt 70 5 21

/-- In a run, the processes that could hold a job are those that have made a
call. -/
private theorem unheld_of_history {deployment : Deployment}
    {actions : List Action} {state : State} {jobId : JobId}
    (runs : run (step deployment) State.initial actions = some state)
    (unheld : ∀ event ∈ state.history,
      (state.claim event.pid).holds? ≠ some jobId) :
    state.Unheld jobId := by
  have reachable : Reachable (step deployment) State.initial
      (fun _ _ => True) state := .of_run runs fun _ _ => trivial
  have accounted := reachable.invariant State.Accounted .initial
    fun _ _ _ accounted _ taken => accounted.step taken
  intro pid held
  rcases accounted pid with none | ⟨event, member, rfl, _⟩
  · rw [none] at held
    cases held
  · exact unheld event member held

theorem every_job_on_course_replayedInTheEnd :
    ∃ state row,
      run (step hasty) State.initial replayedInTheEnd = some state ∧
        state.store.db.jobs 2 = some row ∧ row.attempts = 1 ∧
          state.OnCourse 2 row
            (Course.after row.maxAttempts (occurrences hasty 2
              (transitions (step hasty) State.initial replayedInTheEnd))) := by
  have steady : ∀ transition ∈
      transitions (step hasty) State.initial replayedInTheEnd,
        Steady hasty transition.before transition.action := by
    have punctual := @punctual_of_history hasty replayedInTheEnd
      (by decide +kernel)
    have untroubled : ∀ transition ∈
        transitions (step hasty) State.initial replayedInTheEnd,
          Untroubled hasty transition.before transition.action := by
      decide +kernel
    exact fun transition member =>
      ⟨punctual transition member, untroubled transition member⟩
  have evaluated : (run (step hasty) State.initial replayedInTheEnd).map
      (fun state => ((state.store.db.jobs 2).map JobRow.attempts,
        state.history.all fun event =>
          decide ((state.claim event.pid).holds? ≠ some 2))) =
        some (some 1, true) := by
    decide +kernel
  obtain ⟨state, runs, evaluated⟩ := Option.map_eq_some_iff.mp evaluated
  obtain ⟨attempts, free⟩ := Prod.mk.inj evaluated
  obtain ⟨row, stored, once⟩ := Option.map_eq_some_iff.mp attempts
  have unheld : state.Unheld 2 := by
    refine unheld_of_history runs fun event member => ?_
    exact of_decide_eq_true (List.all_eq_true.mp free event member)
  have course := (every_job_on_course hasty (by decide) replayedInTheEnd steady
    state runs 2 row stored).2 unheld
  exact ⟨state, row, runs, stored, once, course.2⟩

end WebhookDelivery
