import Mathlib.Init

/-!
# Overlapping requests

A client starts requests without waiting for the earlier ones, and their
answers arrive in any order.  The requests are kept in the order in which they
were started.
-/

namespace Concurrency

variable {Query Failure Result : Type}

/-- A request, and its outcome once that has arrived. -/
structure Request (Query Failure Result : Type) where
  query : Query
  outcome : Option (Except Failure Result) := none

namespace Request

def result? (request : Request Query Failure Result) : Option Result :=
  request.outcome.bind Except.toOption

end Request

/-- The result of the request that was started last among those that have
succeeded. -/
def newest? (requests : List (Request Query Failure Result)) : Option Result :=
  (requests.filterMap Request.result?).getLast?

section Newest

variable {requests earlier later : List (Request Query Failure Result)}
  {query : Query}

theorem newest?_append :
    newest? (earlier ++ later) = (newest? later).or (newest? earlier) := by
  rw [newest?, List.filterMap_append, List.getLast?_append]
  rfl

theorem newest?_cons (request : Request Query Failure Result) :
    newest? (request :: later) = (newest? later).or request.result? := by
  rw [← List.singleton_append, newest?_append]
  cases answered : request.result? <;> simp [newest?, answered]

/-- A request that has just been started has no result. -/
theorem newest?_started :
    newest? (requests ++ [⟨query, none⟩]) = newest? requests := by
  simp [newest?, Request.result?]

/-- A request that waits for its outcome stands between earlier and later
ones. -/
theorem exists_split_of_waiting {index : Nat}
    (waiting : requests[index]? = some ⟨query, none⟩) :
    ∃ earlier later, requests = earlier ++ ⟨query, none⟩ :: later ∧
      later = requests.drop (index + 1) ∧
        ∀ outcome, requests.set index ⟨query, outcome⟩ =
          earlier ++ ⟨query, outcome⟩ :: later := by
  obtain ⟨bound, found⟩ := List.getElem?_eq_some_iff.mp waiting
  refine ⟨requests.take index, _, ?_, rfl, ?_⟩
  · rw [← found, ← List.drop_eq_getElem_cons bound, List.take_append_drop]
  · intro outcome
    rw [List.set_eq_take_append_cons_drop, if_pos bound]

/-- A failure brings no result. -/
theorem newest?_failed {index : Nat} {failure : Failure}
    (waiting : requests[index]? = some ⟨query, none⟩) :
    newest? (requests.set index ⟨query, some (.error failure)⟩) =
      newest? requests := by
  obtain ⟨earlier, later, split, -, changed⟩ := exists_split_of_waiting waiting
  rw [changed, split, newest?_append, newest?_append, newest?_cons,
    newest?_cons]
  rfl

/-- A success brings the newest result unless a later request has succeeded
before. -/
theorem newest?_succeeded {index : Nat} {result : Result}
    (waiting : requests[index]? = some ⟨query, none⟩) :
    newest? (requests.set index ⟨query, some (.ok result)⟩) =
      (newest? (requests.drop (index + 1))).or (some result) := by
  obtain ⟨earlier, later, split, rfl, changed⟩ := exists_split_of_waiting waiting
  rw [changed, newest?_append, newest?_cons]
  cases newest? (requests.drop (index + 1)) <;> rfl

/-- What a later request has brought is still the newest result. -/
theorem newest?_of_later {index : Nat} {result : Result}
    (waiting : requests[index]? = some ⟨query, none⟩)
    (overtaken : newest? (requests.drop (index + 1)) = some result) :
    newest? requests = some result := by
  obtain ⟨earlier, later, split, rfl, -⟩ := exists_split_of_waiting waiting
  rw [split, newest?_append, newest?_cons, overtaken]
  rfl

end Newest

end Concurrency
