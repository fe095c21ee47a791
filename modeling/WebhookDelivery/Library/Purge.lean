import WebhookDelivery.Library.Run

/-!
# Runs without the steps an observer does not see

To an observer who sees some of the steps of a run, the rest of them does not
matter when a relation between states survives every step the observer does
not see, and is carried on by the same action where the observer does.
-/

namespace Concurrency

variable {State Action : Type}

/-- The actions of a run that the observer sees, in order. -/
def purge (visible : State → Action → Bool)
    (run : List (Transition State Action)) : List Action :=
  run.filterMap fun transition =>
    if visible transition.before transition.action then
      some transition.action
    else none

theorem purge_of_seen {visible : State → Action → Bool}
    {transition : Transition State Action}
    (seen : visible transition.before transition.action = true)
    (rest : List (Transition State Action)) :
    purge visible (transition :: rest) =
      transition.action :: purge visible rest := by
  simp only [purge, List.filterMap_cons, seen, if_true]

theorem purge_of_unseen {visible : State → Action → Bool}
    {transition : Transition State Action}
    (unseen : visible transition.before transition.action = false)
    (rest : List (Transition State Action)) :
    purge visible (transition :: rest) = purge visible rest := by
  simp only [purge, List.filterMap_cons, unseen, Bool.false_eq_true, if_false]

/-- `relates` survives the steps of the first system that the observer does not
see, and the second system follows those that the observer sees. -/
structure Unwinds (step : State → Action → Option State)
    (visible : State → Action → Bool) (permitted : State → Action → Prop)
    (relates : State → State → Prop) : Prop where
  unseen : ∀ {before after alone action}, relates before alone →
    permitted before action → visible before action = false →
      step before action = some after → relates after alone
  seen : ∀ {before after alone action}, relates before alone →
    permitted before action → visible before action = true →
      step before action = some after →
        ∃ next, step alone action = some next ∧ relates after next

/-- What the observer sees of a run is a run by itself. -/
theorem Unwinds.run {step : State → Action → Option State}
    {visible : State → Action → Bool} {permitted : State → Action → Prop}
    {relates : State → State → Prop}
    (unwinds : Unwinds step visible permitted relates)
    {initial final alone : State} {actions : List Action}
    (related : relates initial alone)
    (runs : run step initial actions = some final)
    (allowed : ∀ transition ∈ transitions step initial actions,
      permitted transition.before transition.action) :
    ∃ last, Concurrency.run step alone
        (purge visible (transitions step initial actions)) = some last ∧
      relates final last := by
  induction actions generalizing initial alone with
  | nil =>
      cases runs
      exact ⟨alone, rfl, related⟩
  | cons action actions ih =>
      obtain ⟨next, taken, rest⟩ := Option.bind_eq_some_iff.mp runs
      rw [transitions_cons taken, List.forall_mem_cons] at allowed
      rw [transitions_cons taken]
      cases sees : visible initial action with
      | false =>
          rw [purge_of_unseen sees]
          exact ih (unwinds.unseen related allowed.1 sees taken) rest allowed.2
      | true =>
          obtain ⟨follower, follows, carried⟩ :=
            unwinds.seen related allowed.1 sees taken
          obtain ⟨last, runsOn, relates⟩ := ih carried rest allowed.2
          rw [purge_of_seen sees]
          refine ⟨last, ?_, relates⟩
          simp only [Concurrency.run, follows, Option.bind_some]
          exact runsOn

end Concurrency
