import WebhookDelivery.Library.Run

/-!
# Waiting lines

A system keeps a line of items in its state: every step takes some from its
front and lets others join at its end.  What a run serves is then what joined
the line, in the order of joining.
-/

namespace Concurrency

/-- What waits in a state, the first to be served at the head, and what a step
serves and lets join. -/
structure Line {State Action : Type} (step : State → Action → Option State)
    (Item : Type) where
  waiting : State → List Item
  served : Transition State Action → List Item
  joined : Transition State Action → List Item
  balanced : ∀ {before action after}, step before action = some after →
    waiting before ++ joined ⟨before, action, after⟩ =
      served ⟨before, action, after⟩ ++ waiting after

namespace Line

variable {State Action Item : Type} {step : State → Action → Option State}
  (line : Line step Item)

/-- All that a run serves, in order. -/
def servedBy (run : List (Transition State Action)) : List Item :=
  run.flatMap line.served

/-- All that joins in a run, in order. -/
def joinedIn (run : List (Transition State Action)) : List Item :=
  run.flatMap line.joined

variable {initial final : State} {actions : List Action}

/-- What waits at first and what joins is what is served and what waits at
last, in the same order. -/
theorem balance (runs : run step initial actions = some final) :
    line.waiting initial ++ line.joinedIn (transitions step initial actions) =
      line.servedBy (transitions step initial actions) ++
        line.waiting final := by
  induction actions generalizing initial with
  | nil =>
      cases runs
      simp [joinedIn, servedBy, transitions]
  | cons action actions ih =>
      obtain ⟨next, taken, rest⟩ := Option.bind_eq_some_iff.mp runs
      have first := line.balanced taken
      have later := ih rest
      simp only [joinedIn, servedBy] at later ⊢
      rw [transitions_cons taken, List.flatMap_cons, List.flatMap_cons,
        ← List.append_assoc, first, List.append_assoc, later,
        List.append_assoc]

/-- An item with `ahead` items before it is served right after these, and
until then it moves up by one place for each item served. -/
theorem moves_up (runs : run step initial actions = some final) {ahead : Nat}
    {item : Item} (waits : (line.waiting initial)[ahead]? = some item) :
    let served := line.servedBy (transitions step initial actions)
    served[ahead]? = some item ∨ served.length ≤ ahead ∧
      (line.waiting final)[ahead - served.length]? = some item := by
  intro served
  have within : ahead < (line.waiting initial).length :=
    (List.getElem?_eq_some_iff.mp waits).1
  have place : (served ++ line.waiting final)[ahead]? = some item := by
    rw [← line.balance runs, List.getElem?_append_left within]
    exact waits
  by_cases reached : ahead < served.length
  · rw [List.getElem?_append_left reached] at place
    exact .inl place
  · have behind : served.length ≤ ahead := Nat.le_of_not_lt reached
    rw [List.getElem?_append_right behind] at place
    exact .inr ⟨behind, place⟩

end Line

end Concurrency
