import Mathlib.Data.List.Basic

/-!
# Counting group by group
-/

namespace Counting

variable {Value Group : Type} [DecidableEq Group]

/-- The values of one group of a list. -/
def group (key : Value → Group) (which : Group) (list : List Value) :
    List Value :=
  list.filter fun value => decide (key value = which)

/-- When one test is met at most as often as another in every group, it is met
at most as often in the whole list. -/
theorem countP_le_of_groups (key : Value → Group) (first second : Value → Bool)
    (list : List Value)
    (each : ∀ which, (group key which list).countP first ≤
      (group key which list).countP second) :
    list.countP first ≤ list.countP second := by
  induction size : list.length using Nat.strongRecOn generalizing list with
  | ind length ih =>
      cases list with
      | nil => exact Nat.le_refl _
      | cons head tail =>
          -- Split off the group of the head; what remains is shorter.
          let others := tail.filter fun value => !decide (key value = key head)
          have split : ∀ test : Value → Bool, (head :: tail).countP test =
              (group key (key head) (head :: tail)).countP test +
                others.countP test := by
            intro test
            rw [List.countP_eq_countP_filter_add (head :: tail) test
              fun value => decide (key value = key head)]
            simp [group, others]
          have grouped : ∀ which, which ≠ key head →
              group key which others = group key which (head :: tail) := by
            intro which distinct
            simp only [group, others, List.filter_filter]
            rw [List.filter_cons_of_neg (by simpa using distinct.symm)]
            refine List.filter_congr fun value _ => ?_
            by_cases same : key value = which
            · simp [same, distinct]
            · simp [same]
          have empty : group key (key head) others = [] := by
            simp [group, others, List.filter_filter]
          rw [split, split]
          refine Nat.add_le_add (each _) (ih _ ?_ _ ?_ rfl)
          · rw [← size]
            exact Nat.lt_succ_of_le (List.length_filter_le _ _)
          · intro which
            by_cases own : which = key head
            · rw [own, empty]
              exact Nat.le_refl _
            · rw [grouped which own]
              exact each which

end Counting
