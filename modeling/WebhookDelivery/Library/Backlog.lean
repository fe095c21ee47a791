import WebhookDelivery.Library.Run
import WebhookDelivery.Library.SortedSet
import Mathlib.Algebra.Order.Ring.Nat

/-!
# Waiting in a sorted set

A sorted set is emptied from the front, in batches, and added to by anybody.
A member waits behind those that are listed before it.  As long as what is
added comes after it, every batch either takes it or brings it forward by as
many places as the batch has.
-/

namespace SortedSets

variable {Member : Type} [LinearOrder Member]

/-- The entry is of another member, and is listed after the waiting one. -/
def Behind (entry waiting : Member × Int) : Prop :=
  entry.1 ≠ waiting.1 ∧ ¬Precedes entry waiting

instance : DecidableRel (@Behind Member _) :=
  fun entry waiting =>
    inferInstanceAs (Decidable (entry.1 ≠ waiting.1 ∧
      ¬Precedes entry waiting))

namespace SortedSet

/-- How many others are listed before a member with this score. -/
def ahead (set : SortedSet Member) (waiting : Member × Int) : Nat :=
  set.entries.countP fun entry =>
    decide (entry.1 ≠ waiting.1 ∧ Precedes entry waiting)

variable {set : SortedSet Member} {waiting : Member × Int}

theorem ahead_remove_le (other : Member) :
    (set.remove other).ahead waiting ≤ set.ahead waiting :=
  List.filter_sublist.countP_le

theorem ahead_foldl_remove_le (others : List Member) :
    (others.foldl remove set).ahead waiting ≤ set.ahead waiting := by
  induction others generalizing set with
  | nil => exact le_rfl
  | cons other others ih => exact ih.trans (ahead_remove_le other)

/-- What is added behind does not delay. -/
theorem ahead_insert_le {other : Member} {score : Int}
    (behind : Behind (other, score) waiting) :
    (set.insert other score).ahead waiting ≤ set.ahead waiting := by
  have perm := List.perm_orderedInsert Precedes (other, score)
    (set.remove other).entries
  refine le_trans (le_of_eq ?_) (ahead_remove_le other)
  unfold ahead
  change List.countP _ ((set.remove other).entries.orderedInsert Precedes
    (other, score)) = _
  rw [perm.countP_eq, List.countP_cons_of_neg]
  simp [behind.2]

theorem score?_foldl_remove {member : Member} {others : List Member}
    (kept : member ∉ others) :
    (others.foldl remove set).score? member = set.score? member := by
  induction others generalizing set with
  | nil => rfl
  | cons other others ih =>
      rw [List.mem_cons, not_or] at kept
      rw [List.foldl_cons, ih kept.2, score?_remove, if_neg kept.1]

theorem le_of_mem_rangeByScore
    (found : set.score? waiting.1 = some waiting.2) {bound : Int} {limit : Nat}
    (listed : waiting.1 ∈ set.rangeByScore bound limit) :
    waiting.2 ≤ bound := by
  obtain ⟨score, scored, within⟩ := score?_of_mem_rangeByScore listed
  rw [found] at scored
  cases scored
  exact within

/-- A batch takes a waiting member that is within its bound, or as many that
are before it. -/
theorem listed_or_forward
    (found : set.score? waiting.1 = some waiting.2) {bound : Int}
    (within : waiting.2 ≤ bound) (limit : Nat) :
    waiting.1 ∈ set.rangeByScore bound limit ∨
      ((set.rangeByScore bound limit).foldl remove set).ahead waiting +
        limit ≤ set.ahead waiting := by
  by_cases listed : waiting.1 ∈ set.rangeByScore bound limit
  · exact .inl listed
  right
  rw [score?_eq_some_iff] at found
  let due := set.entries.filter fun entry => decide (entry.2 ≤ bound)
  let names := (due.take limit).map Prod.fst
  have unlisted : waiting.1 ∉ names := listed
  have split : due.take limit ++ due.drop limit = due :=
    List.take_append_drop limit due
  have later : waiting ∈ due.drop limit := by
    have present : waiting ∈ due :=
      List.mem_filter.mpr ⟨found, decide_eq_true within⟩
    rw [← split, List.mem_append] at present
    exact present.resolve_left fun early =>
      unlisted (List.mem_map_of_mem early)
  have full : (due.take limit).length = limit := by
    have := List.length_pos_of_mem later
    rw [List.length_drop] at this
    rw [List.length_take]
    omega
  have before : ∀ entry ∈ due.take limit,
      entry.1 ≠ waiting.1 ∧ Precedes entry waiting := by
    intro entry early
    refine ⟨fun same => unlisted (same ▸ List.mem_map_of_mem early), ?_⟩
    have sorted : due.Pairwise Precedes := set.sorted.filter _
    rw [← split, List.pairwise_append] at sorted
    exact sorted.2.2 entry early waiting later
  have batch : (due.take limit).countP (fun entry =>
      decide (entry.1 ≠ waiting.1 ∧ Precedes entry waiting)) = limit := by
    rw [List.countP_eq_length.mpr fun entry early =>
      decide_eq_true (before entry early), full]
  have part : (due.take limit).Sublist (set.entries.filter fun entry =>
      !decide (entry.1 ∉ names)) := by
    have all : (due.take limit).filter (fun entry =>
        !decide (entry.1 ∉ names)) = due.take limit :=
      List.filter_eq_self.mpr fun entry early => by
        rw [Bool.not_eq_true', decide_eq_false_iff_not, not_not]
        exact List.mem_map_of_mem early
    rw [← all]
    exact ((List.take_sublist _ _).trans List.filter_sublist).filter _
  have taken := part.countP_le (p := fun entry =>
    decide (entry.1 ≠ waiting.1 ∧ Precedes entry waiting))
  unfold ahead
  rw [foldl_remove_entries, List.countP_eq_countP_filter_add set.entries _
    fun entry => decide (entry.1 ∉ names)]
  change List.countP _ (set.entries.filter fun entry =>
    decide (entry.1 ∉ names)) + limit ≤ _
  omega

/-- A batch takes a waiting member, or leaves it where it is with fewer before
it. -/
theorem swept (found : set.score? waiting.1 = some waiting.2) (bound : Int)
    (limit : Nat) :
    waiting.1 ∈ set.rangeByScore bound limit ∨
      ((set.rangeByScore bound limit).foldl remove set).score? waiting.1 =
        some waiting.2 ∧
      ((set.rangeByScore bound limit).foldl remove set).ahead waiting +
        (if waiting.2 ≤ bound then limit else 0) ≤ set.ahead waiting := by
  by_cases listed : waiting.1 ∈ set.rangeByScore bound limit
  · exact .inl listed
  refine .inr ⟨(score?_foldl_remove listed).trans found, ?_⟩
  by_cases within : waiting.2 ≤ bound
  · rw [if_pos within]
    exact (listed_or_forward found within limit).resolve_left listed
  · rw [if_neg within]
    exact ahead_foldl_remove_le _

end SortedSet

end SortedSets

namespace Concurrency

variable {State Action : Type} {step : State → Action → Option State}

/-- A step serves whoever waits, or brings it forward by a batch; so when the
batches of a run come to more than was ahead, one of its steps has served. -/
theorem served_of_batches (waits : State → Prop) (ahead : State → Nat)
    (batch : Action → Nat) (allowed : State → Action → Prop)
    (served : Transition State Action → Prop)
    (forward : ∀ {before action after}, waits before →
      allowed before action → step before action = some after →
        served ⟨before, action, after⟩ ∨
          waits after ∧ ahead after + batch action ≤ ahead before)
    {actions : List Action} {before after : State}
    (runs : run step before actions = some after) (start : waits before)
    (meets : ∀ transition ∈ transitions step before actions,
      allowed transition.before transition.action)
    (enough : ahead before < (actions.map batch).sum) :
    ∃ transition ∈ transitions step before actions, served transition := by
  induction actions generalizing before with
  | nil => exact absurd enough (Nat.not_lt_zero _)
  | cons action actions ih =>
      obtain ⟨next, taken, rest⟩ := Option.bind_eq_some_iff.mp runs
      rw [transitions_cons taken, List.forall_mem_cons] at meets
      rw [transitions_cons taken]
      rw [List.map_cons, List.sum_cons] at enough
      have permitted : allowed before action := meets.1
      rcases forward start permitted taken with serves | ⟨waits, nearer⟩
      · exact ⟨_, List.mem_cons_self, serves⟩
      · obtain ⟨transition, member, serves⟩ :=
          ih rest waits meets.2 (by omega)
        exact ⟨transition, List.mem_cons_of_mem _ member, serves⟩

end Concurrency
