import Mathlib.Init

/-!
# Runs of a transition system

A transition system is a partial step function.  A run is the list of actions
taken from an initial state; a condition on steps may look at the action and
at the state in which it is taken.
-/

namespace Concurrency

variable {State Action : Type} (step : State → Action → Option State)

/-- The states reached from `initial` by steps that meet `permitted`. -/
inductive Reachable (initial : State) (permitted : State → Action → Prop) :
    State → Prop
  | initial : Reachable initial permitted initial
  | step {before after : State} {action : Action} :
      Reachable initial permitted before → permitted before action →
        step before action = some after → Reachable initial permitted after

/-- The state after a list of actions, if every one of them is enabled. -/
def run : State → List Action → Option State
  | state, [] => some state
  | state, action :: actions =>
      (step state action).bind fun next => run next actions

/-- One step of a run. -/
structure Transition (State Action : Type) where
  before : State
  action : Action
  after : State

/-- The steps taken by a run, in order. -/
def transitions : State → List Action → List (Transition State Action)
  | _, [] => []
  | state, action :: actions =>
      match step state action with
      | some next => ⟨state, action, next⟩ :: transitions next actions
      | none => []

variable {step}

theorem Reachable.invariant {initial : State}
    {permitted : State → Action → Prop} (invariant : State → Prop)
    (start : invariant initial)
    (preserved : ∀ before action after, invariant before →
      permitted before action → step before action = some after →
        invariant after)
    {state : State} (reachable : Reachable step initial permitted state) :
    invariant state := by
  induction reachable with
  | initial => exact start
  | step _ allowed taken ih => exact preserved _ _ _ ih allowed taken

theorem Reachable.mono {initial : State}
    {permitted wider : State → Action → Prop}
    (widen : ∀ state action, permitted state action → wider state action)
    {state : State} (reachable : Reachable step initial permitted state) :
    Reachable step initial wider state := by
  induction reachable with
  | initial => exact .initial
  | step _ allowed taken ih => exact .step ih (widen _ _ allowed) taken

theorem transitions_cons {before after : State} {action : Action}
    (taken : step before action = some after) (actions : List Action) :
    transitions step before (action :: actions) =
      ⟨before, action, after⟩ :: transitions step after actions := by
  simp only [transitions, taken]

private theorem Reachable.run_from {initial : State}
    {permitted : State → Action → Prop} {state final : State}
    {actions : List Action}
    (reachable : Reachable step initial permitted state)
    (runs : run step state actions = some final)
    (allowed : ∀ transition ∈ transitions step state actions,
      permitted transition.before transition.action) :
    Reachable step initial permitted final := by
  induction actions generalizing state with
  | nil =>
      cases runs
      exact reachable
  | cons action actions ih =>
      obtain ⟨next, taken, rest⟩ := Option.bind_eq_some_iff.mp runs
      rw [transitions_cons taken, List.forall_mem_cons] at allowed
      exact ih (reachable.step allowed.1 taken) rest allowed.2

/-- The last state of a run whose steps all meet a condition is reachable by
such steps. -/
theorem Reachable.of_run {initial final : State}
    {permitted : State → Action → Prop} {actions : List Action}
    (runs : run step initial actions = some final)
    (allowed : ∀ transition ∈ transitions step initial actions,
      permitted transition.before transition.action) :
    Reachable step initial permitted final :=
  Reachable.run_from .initial runs allowed

/-- What every step keeps holds at the end of a run. -/
theorem invariant_of_run {invariant : State → Prop} {initial final : State}
    {actions : List Action} (runs : run step initial actions = some final)
    (start : invariant initial)
    (kept : ∀ before action after, invariant before →
      step before action = some after → invariant after) : invariant final := by
  induction actions generalizing initial with
  | nil =>
      cases runs
      exact start
  | cons action actions ih =>
      obtain ⟨next, taken, rest⟩ := Option.bind_eq_some_iff.mp runs
      exact ih rest (kept _ _ _ start taken)

/-- The steps of a run are those of its actions. -/
theorem action_mem_of_transitions {initial : State} {actions : List Action}
    {transition : Transition State Action}
    (member : transition ∈ transitions step initial actions) :
    transition.action ∈ actions := by
  induction actions generalizing initial with
  | nil => cases member
  | cons action actions ih =>
      cases taken : step initial action with
      | none => simp [transitions, taken] at member
      | some next =>
          rw [transitions_cons taken, List.mem_cons] at member
          rcases member with rfl | later
          · exact List.mem_cons_self
          · exact List.mem_cons_of_mem _ (ih later)

theorem run_append {initial before : State} {actions : List Action}
    (runs : run step initial actions = some before) (more : List Action) :
    run step initial (actions ++ more) = run step before more := by
  induction actions generalizing initial with
  | nil =>
      cases runs
      rfl
  | cons action actions ih =>
      obtain ⟨next, taken, rest⟩ := Option.bind_eq_some_iff.mp runs
      simp only [List.cons_append, run, taken, Option.bind_some]
      exact ih rest

/-- A run goes on from the state it has reached. -/
theorem transitions_append {initial before : State} {actions : List Action}
    (runs : run step initial actions = some before) (more : List Action) :
    transitions step initial (actions ++ more) =
      transitions step initial actions ++ transitions step before more := by
  induction actions generalizing initial with
  | nil =>
      cases runs
      rfl
  | cons first actions ih =>
      obtain ⟨next, taken, rest⟩ := Option.bind_eq_some_iff.mp runs
      rw [List.cons_append, transitions_cons taken, transitions_cons taken,
        ih rest, List.cons_append]

/-- The last step of a run is one of its transitions. -/
theorem mem_transitions_append {initial before after : State}
    {actions : List Action} {action : Action}
    (runs : run step initial actions = some before)
    (taken : step before action = some after) :
    ⟨before, action, after⟩ ∈
      transitions step initial (actions ++ [action]) := by
  rw [transitions_append runs, transitions_cons taken]
  exact List.mem_append_right _ List.mem_cons_self

/-- What evaluation shows of a run before and after its last action holds of
its last transition. -/
theorem exists_last_transition {First Last : Type} {initial : State}
    (actions : List Action) (action : Action) (first : State → First)
    (last : State → Last) {firstValue : First} {lastValue : Last}
    (evaluatedFirst :
      (run step initial actions).map first = some firstValue)
    (evaluatedLast :
      (run step initial (actions ++ [action])).map last = some lastValue) :
    ∃ transition ∈ transitions step initial (actions ++ [action]),
      transition.action = action ∧ first transition.before = firstValue ∧
        last transition.after = lastValue := by
  obtain ⟨before, runs, firstEq⟩ := Option.map_eq_some_iff.mp evaluatedFirst
  obtain ⟨after, runsOn, lastEq⟩ := Option.map_eq_some_iff.mp evaluatedLast
  have taken : step before action = some after := by
    rw [run_append runs] at runsOn
    simpa [run] using runsOn
  exact ⟨_, mem_transitions_append runs taken, rfl, firstEq, lastEq⟩

/-- When an invariant is kept by the steps that meet `exact`, which are good,
and no other step is good, then all steps of a run are good if and only if all
of them meet `exact`. -/
theorem transitions_good_iff_exact (invariant : State → Prop)
    (permitted exact : State → Action → Prop)
    (good : State → Action → State → Prop)
    (kept : ∀ before action after, invariant before →
      permitted before action → exact before action →
        step before action = some after →
          invariant after ∧ good before action after)
    (broken : ∀ before action after, invariant before →
      permitted before action → step before action = some after →
        good before action after → exact before action)
    {initial : State} (start : invariant initial) {actions : List Action}
    (allowed : ∀ transition ∈ transitions step initial actions,
      permitted transition.before transition.action) :
    (∀ transition ∈ transitions step initial actions,
      good transition.before transition.action transition.after) ↔
      ∀ transition ∈ transitions step initial actions,
        exact transition.before transition.action := by
  induction actions generalizing initial with
  | nil => simp [transitions]
  | cons action actions ih =>
      cases taken : step initial action with
      | none => simp [transitions, taken]
      | some next =>
          rw [transitions_cons taken, List.forall_mem_cons] at allowed ⊢
          rw [List.forall_mem_cons]
          constructor
          · rintro ⟨first, later⟩
            have exactly : exact initial action :=
              broken _ _ _ start allowed.1 taken first
            have held := (kept _ _ _ start allowed.1 exactly taken).1
            exact ⟨exactly, (ih held allowed.2).mp later⟩
          · rintro ⟨exactly, later⟩
            obtain ⟨held, first⟩ := kept _ _ _ start allowed.1 exactly taken
            exact ⟨first, (ih held allowed.2).mpr later⟩

/-- Every step of a run whose steps meet a condition starts in a state that
satisfies the invariant. -/
theorem invariant_of_transitions (invariant : State → Prop)
    {permitted : State → Action → Prop}
    (kept : ∀ before action after, invariant before →
      permitted before action → step before action = some after →
        invariant after)
    {initial : State} (start : invariant initial) {actions : List Action}
    (allowed : ∀ transition ∈ transitions step initial actions,
      permitted transition.before transition.action) :
    ∀ transition ∈ transitions step initial actions,
      invariant transition.before ∧ invariant transition.after := by
  induction actions generalizing initial with
  | nil => simp [transitions]
  | cons action actions ih =>
      cases taken : step initial action with
      | none => simp [transitions, taken]
      | some next =>
          rw [transitions_cons taken, List.forall_mem_cons] at allowed ⊢
          have held := kept _ _ _ start allowed.1 taken
          exact ⟨⟨start, held⟩, ih held allowed.2⟩

theorem step_of_mem_transitions {initial : State} {actions : List Action}
    {transition : Transition State Action}
    (member : transition ∈ transitions step initial actions) :
    step transition.before transition.action = some transition.after := by
  induction actions generalizing initial with
  | nil => cases member
  | cons action actions ih =>
      cases taken : step initial action with
      | none => simp [transitions, taken] at member
      | some next =>
          rw [transitions_cons taken, List.mem_cons] at member
          rcases member with rfl | later
          · exact taken
          · exact ih later

end Concurrency
