import WebhookDelivery.Library.Run

/-!
# Systems seen at a coarser grain

A system is described by the stages that its states show, when every step
leaves the stage as it is or makes one of the permitted moves.
-/

namespace Concurrency

variable {State Action Stage : Type}

/-- The states of a system show stages, and its permitted steps make moves. -/
structure Simulation (step : State → Action → Option State)
    (permitted : State → Action → Prop)
    (move : Transition State Action → Stage → Stage → Prop) where
  invariant : State → Prop
  shows : State → Stage → Prop
  kept : ∀ {before action after}, invariant before →
    permitted before action → step before action = some after →
      invariant after
  matched : ∀ {before action after stage}, invariant before →
    permitted before action → step before action = some after →
      shows before stage → shows after stage ∨
        ∃ next, move ⟨before, action, after⟩ stage next ∧ shows after next

namespace Simulation

variable {step : State → Action → Option State}
  {permitted : State → Action → Prop}
  {move : Transition State Action → Stage → Stage → Prop}

/-- In every step of a run the system stays at a stage or makes a move. -/
theorem shown_throughout (simulation : Simulation step permitted move)
    {initial : State} {actions : List Action} {stage : Stage}
    (start : simulation.invariant initial)
    (allowed : ∀ transition ∈ transitions step initial actions,
      permitted transition.before transition.action)
    (shown : simulation.shows initial stage) :
    ∀ transition ∈ transitions step initial actions, ∃ last next,
      simulation.shows transition.before last ∧
        simulation.shows transition.after next ∧
          (next = last ∨ move transition last next) := by
  induction actions generalizing initial stage with
  | nil => simp [transitions]
  | cons action actions ih =>
      cases taken : step initial action with
      | none => simp [transitions, taken]
      | some next =>
          rw [transitions_cons taken, List.forall_mem_cons] at allowed ⊢
          have held := simulation.kept start allowed.1 taken
          rcases simulation.matched start allowed.1 taken shown with
            same | ⟨other, moves, shownNext⟩
          · exact ⟨⟨stage, stage, shown, same, .inl rfl⟩,
              ih held allowed.2 same⟩
          · exact ⟨⟨stage, other, shown, shownNext, .inr moves⟩,
              ih held allowed.2 shownNext⟩

/-- A run ends within a set of stages in which it has started, unless one of
its steps moves out of the set. -/
theorem stays_or_leaves (simulation : Simulation step permitted move)
    {stages : Stage → Prop} {initial final : State} {actions : List Action}
    {stage : Stage} (start : simulation.invariant initial)
    (runs : run step initial actions = some final)
    (allowed : ∀ transition ∈ transitions step initial actions,
      permitted transition.before transition.action)
    (shown : simulation.shows initial stage) (within : stages stage) :
    (∃ last, simulation.shows final last ∧ stages last) ∨
      ∃ transition ∈ transitions step initial actions, ∃ last next,
        simulation.shows transition.before last ∧ stages last ∧
          move transition last next ∧ ¬stages next := by
  induction actions generalizing initial stage with
  | nil =>
      cases runs
      exact .inl ⟨stage, shown, within⟩
  | cons action actions ih =>
      obtain ⟨next, taken, rest⟩ := Option.bind_eq_some_iff.mp runs
      rw [transitions_cons taken] at allowed ⊢
      rw [List.forall_mem_cons] at allowed
      have held := simulation.kept start allowed.1 taken
      rcases simulation.matched start allowed.1 taken shown with
        same | ⟨other, moves, shownNext⟩
      · refine (ih held rest allowed.2 same within).imp_right ?_
        rintro ⟨transition, member, leaving⟩
        exact ⟨transition, List.mem_cons_of_mem _ member, leaving⟩
      · by_cases inside : stages other
        · refine (ih held rest allowed.2 shownNext inside).imp_right ?_
          rintro ⟨transition, member, leaving⟩
          exact ⟨transition, List.mem_cons_of_mem _ member, leaving⟩
        · exact .inr ⟨_, List.mem_cons_self, stage, other, shown, within,
            moves, inside⟩

end Simulation

end Concurrency
