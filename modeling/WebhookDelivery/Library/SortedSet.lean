import Mathlib.Data.List.Sort
import Mathlib.Data.List.Count

/-!
# Finite sets ordered by a score

A sorted set keeps at most one integer score per member and lists its members
by increasing score, ties broken by the order of the members.  Well-formedness
is a field of the structure, so every value built here is sorted and has no
repeated member.
-/

namespace SortedSets

variable {Member : Type} [LinearOrder Member]

/-- Listing order of the entries: by score, then by member. -/
def Precedes (first second : Member × Int) : Prop :=
  first.2 < second.2 ∨ first.2 = second.2 ∧ first.1 ≤ second.1

instance : DecidableRel (@Precedes Member _) :=
  fun first second =>
    inferInstanceAs
      (Decidable (first.2 < second.2 ∨
        first.2 = second.2 ∧ first.1 ≤ second.1))

instance : Std.Total (@Precedes Member _) where
  total first second := by
    rcases lt_trichotomy first.2 second.2 with less | equal | greater
    · exact Or.inl (Or.inl less)
    · rcases le_total first.1 second.1 with below | above
      · exact Or.inl (Or.inr ⟨equal, below⟩)
      · exact Or.inr (Or.inr ⟨equal.symm, above⟩)
    · exact Or.inr (Or.inl greater)

instance : IsTrans (Member × Int) Precedes where
  trans first second third := by
    rintro (less | ⟨equal, below⟩) (less' | ⟨equal', below'⟩)
    · exact Or.inl (less.trans less')
    · exact Or.inl (equal' ▸ less)
    · exact Or.inl (equal ▸ less')
    · exact Or.inr ⟨equal.trans equal', below.trans below'⟩

/-- A finite set of scored members, listed by score and then by member. -/
structure SortedSet (Member : Type) [LinearOrder Member] where
  entries : List (Member × Int)
  sorted : entries.Pairwise Precedes
  distinct : (entries.map Prod.fst).Nodup

namespace SortedSet

def empty : SortedSet Member where
  entries := []
  sorted := List.Pairwise.nil
  distinct := List.nodup_nil

/-- The score of a member, if it belongs to the set. -/
def score? (set : SortedSet Member) (member : Member) : Option Int :=
  set.entries.lookup member

/-- Remove a member; nothing happens when it is absent. -/
def remove (set : SortedSet Member) (member : Member) : SortedSet Member where
  entries := set.entries.filter fun entry => decide (entry.1 ≠ member)
  sorted := set.sorted.filter _
  distinct := set.distinct.sublist (List.filter_sublist.map _)

/-- Add a member with a score, or overwrite the score it has. -/
def insert (set : SortedSet Member) (member : Member) (score : Int) :
    SortedSet Member where
  entries := (set.remove member).entries.orderedInsert Precedes (member, score)
  sorted := (set.remove member).sorted.orderedInsert _ _
  distinct := by
    have perm := (List.perm_orderedInsert Precedes (member, score)
      (set.remove member).entries).map Prod.fst
    rw [perm.nodup_iff]
    refine List.nodup_cons.mpr ⟨?_, (set.remove member).distinct⟩
    simp [remove, List.mem_map]

/-- The first `limit` members whose score is at most `bound`, in listing
order. -/
def rangeByScore (set : SortedSet Member) (bound : Int) (limit : Nat) :
    List Member :=
  ((set.entries.filter fun entry => decide (entry.2 ≤ bound)).take limit).map
    Prod.fst

theorem score?_eq_some_iff (set : SortedSet Member) (member : Member)
    (score : Int) :
    set.score? member = some score ↔ (member, score) ∈ set.entries := by
  have distinct := set.distinct
  unfold score?
  generalize set.entries = entries at distinct
  induction entries with
  | nil => simp
  | cons head tail ih =>
      obtain ⟨key, value⟩ := head
      simp only [List.map_cons, List.nodup_cons] at distinct
      by_cases same : member = key
      · subst same
        have absent : (member, score) ∉ tail := fun later =>
          distinct.1 (List.mem_map.mpr ⟨_, later, rfl⟩)
        simp [absent, eq_comm]
      · have different : (member == key) = false := by simp [same]
        simp [List.lookup_cons, different, ih distinct.2, same]

@[simp]
theorem score?_empty (member : Member) :
    (empty : SortedSet Member).score? member = none :=
  rfl

theorem mem_remove_entries (set : SortedSet Member) (member other : Member)
    (score : Int) :
    (other, score) ∈ (set.remove member).entries ↔
      other ≠ member ∧ (other, score) ∈ set.entries := by
  simp [remove, and_comm]

@[simp]
theorem score?_remove (set : SortedSet Member) (member other : Member) :
    (set.remove member).score? other =
      if other = member then none else set.score? other := by
  ext score
  rw [score?_eq_some_iff, mem_remove_entries]
  by_cases same : other = member
  · simp [same]
  · simp [same, score?_eq_some_iff]

@[simp]
theorem score?_insert (set : SortedSet Member) (member other : Member)
    (score : Int) :
    (set.insert member score).score? other =
      if other = member then some score else set.score? other := by
  ext value
  rw [score?_eq_some_iff]
  have perm := List.perm_orderedInsert Precedes (member, score)
    (set.remove member).entries
  change (other, value) ∈
    (set.remove member).entries.orderedInsert Precedes (member, score) ↔ _
  rw [perm.mem_iff, List.mem_cons, mem_remove_entries]
  by_cases same : other = member
  · simp [same, eq_comm]
  · simp [same, score?_eq_some_iff]

theorem score?_of_mem_rangeByScore {set : SortedSet Member} {bound : Int}
    {limit : Nat} {member : Member}
    (listed : member ∈ set.rangeByScore bound limit) :
    ∃ score, set.score? member = some score ∧ score ≤ bound := by
  obtain ⟨entry, entryMem, rfl⟩ := List.mem_map.mp listed
  have filtered := List.mem_of_mem_take entryMem
  rw [List.mem_filter, decide_eq_true_iff] at filtered
  exact ⟨entry.2, (set.score?_eq_some_iff _ _).mpr filtered.1, filtered.2⟩

/-- When every score is within the bound, a nonempty set lists something. -/
theorem rangeByScore_ne_nil {set : SortedSet Member} {bound : Int}
    {limit : Nat} (positive : 0 < limit) (nonempty : set.entries ≠ [])
    (within : ∀ entry ∈ set.entries, entry.2 ≤ bound) :
    set.rangeByScore bound limit ≠ [] := by
  have all : set.entries.filter (fun entry => decide (entry.2 ≤ bound)) =
      set.entries :=
    List.filter_eq_self.mpr fun entry member =>
      decide_eq_true (within entry member)
  simp only [rangeByScore, all, ne_eq, List.map_eq_nil_iff,
    List.take_eq_nil_iff, nonempty, or_false]
  exact positive.ne'

/-- Removing a list of members leaves a part of the set. -/
theorem mem_of_mem_foldl_remove {set : SortedSet Member}
    {members : List Member} {entry : Member × Int}
    (kept : entry ∈ (members.foldl remove set).entries) :
    entry ∈ set.entries := by
  induction members generalizing set with
  | nil => exact kept
  | cons member members ih => exact List.mem_of_mem_filter (ih kept)

theorem length_foldl_remove_le (set : SortedSet Member)
    (members : List Member) :
    (members.foldl remove set).entries.length ≤ set.entries.length := by
  induction members generalizing set with
  | nil => exact le_refl _
  | cons member members ih =>
      exact (ih _).trans (List.length_filter_le _ _)

/-- Removing listed members makes the set smaller. -/
theorem length_foldl_remove_lt {set : SortedSet Member} {bound : Int}
    {limit : Nat} (listed : set.rangeByScore bound limit ≠ []) :
    ((set.rangeByScore bound limit).foldl remove set).entries.length <
      set.entries.length := by
  obtain ⟨member, members, same⟩ := List.exists_cons_of_ne_nil listed
  have mem : member ∈ set.rangeByScore bound limit := by
    rw [same]
    exact List.mem_cons_self
  obtain ⟨score, found, _⟩ := score?_of_mem_rangeByScore mem
  rw [score?_eq_some_iff] at found
  rw [same, List.foldl_cons]
  apply lt_of_le_of_lt (length_foldl_remove_le _ _)
  refine List.length_filter_lt_length_iff_exists.mpr ⟨_, found, ?_⟩
  simp

theorem rangeByScore_nodup (set : SortedSet Member) (bound : Int)
    (limit : Nat) : (set.rangeByScore bound limit).Nodup :=
  set.distinct.sublist
    (((List.take_sublist _ _).trans List.filter_sublist).map Prod.fst)

/-! ## Taking the front away in batches -/

/-- The members whose score is at most `bound`, in listing order. -/
def upTo (set : SortedSet Member) (bound : Int) : List Member :=
  (set.entries.filter fun entry => decide (entry.2 ≤ bound)).map Prod.fst

/-- The set without these members. -/
def above (set : SortedSet Member) (bound : Int) : SortedSet Member where
  entries := set.entries.filter fun entry => decide (bound < entry.2)
  sorted := set.sorted.filter _
  distinct := set.distinct.sublist (List.filter_sublist.map _)

theorem eq_of_entries {first second : SortedSet Member}
    (same : first.entries = second.entries) : first = second := by
  cases first
  cases second
  simp only at same
  subst same
  rfl

theorem rangeByScore_eq (set : SortedSet Member) (bound : Int)
    (limit : Nat) :
    set.rangeByScore bound limit = (set.upTo bound).take limit :=
  (List.map_take ..)

theorem upTo_nodup (set : SortedSet Member) (bound : Int) :
    (set.upTo bound).Nodup :=
  set.distinct.sublist (List.filter_sublist.map _)

theorem mem_upTo_iff (set : SortedSet Member) (bound : Int)
    (member : Member) :
    member ∈ set.upTo bound ↔
      ∃ score, set.score? member = some score ∧ score ≤ bound := by
  simp only [upTo, List.mem_map, List.mem_filter, decide_eq_true_eq,
    score?_eq_some_iff]
  constructor
  · rintro ⟨⟨_, score⟩, ⟨present, within⟩, rfl⟩
    exact ⟨score, present, within⟩
  · rintro ⟨score, present, within⟩
    exact ⟨(member, score), ⟨present, within⟩, rfl⟩

/-- The members up to the bound are listed by score, then by member. -/
theorem upTo_sorted (set : SortedSet Member) (bound : Int) :
    (set.upTo bound).Pairwise fun first second =>
      ∀ early late, set.score? first = some early →
        set.score? second = some late →
          Precedes (first, early) (second, late) := by
  unfold upTo
  rw [List.pairwise_map]
  apply (set.sorted.filter _).imp_of_mem
  intro first second front back precedes early late scored scored'
  have known : ∀ entry ∈ set.entries.filter fun entry =>
      decide (entry.2 ≤ bound), ∀ score,
        set.score? entry.1 = some score → score = entry.2 := by
    intro entry member score found
    have present := (set.score?_eq_some_iff entry.1 entry.2).mpr
      (List.mem_of_mem_filter member)
    rw [present] at found
    exact (Option.some.inj found).symm
  rw [known first front early scored, known second back late scored']
  exact precedes

@[simp]
theorem score?_above (set : SortedSet Member) (bound : Int)
    (member : Member) :
    (set.above bound).score? member =
      (set.score? member).filter fun score => decide (bound < score) := by
  ext score
  rw [score?_eq_some_iff]
  simp [above, Option.filter_eq_some_iff, score?_eq_some_iff]

theorem above_eq_self {set : SortedSet Member} {bound : Int}
    (none : set.upTo bound = []) : set.above bound = set := by
  apply eq_of_entries
  refine List.filter_eq_self.mpr fun entry member => ?_
  have beyond := List.filter_eq_nil_iff.mp (List.map_eq_nil_iff.mp none)
    entry member
  simpa using beyond

theorem foldl_remove_entries (set : SortedSet Member)
    (members : List Member) :
    (members.foldl remove set).entries =
      set.entries.filter fun entry => decide (entry.1 ∉ members) := by
  induction members generalizing set with
  | nil => simp
  | cons member members ih =>
      rw [List.foldl_cons, ih]
      simp only [remove, List.filter_filter, List.mem_cons, not_or]
      refine List.filter_congr fun entry _ => ?_
      rw [← Bool.decide_and]
      exact decide_eq_decide.mpr and_comm

variable (set : SortedSet Member) (bound : Int) (limit : Nat)

/-- Removing the first batch leaves the rest. -/
theorem upTo_removed :
    ((set.rangeByScore bound limit).foldl remove set).upTo bound =
      (set.upTo bound).drop limit := by
  have kept : ((set.rangeByScore bound limit).foldl remove set).upTo bound =
      (set.upTo bound).filter fun member =>
        decide (member ∉ (set.upTo bound).take limit) := by
    rw [upTo, foldl_remove_entries, rangeByScore_eq, List.filter_filter]
    generalize (set.upTo bound).take limit = batch
    rw [upTo, List.filter_map, List.filter_filter]
    congr 1
    refine List.filter_congr fun entry _ => ?_
    exact Bool.and_comm _ _
  have apart := List.disjoint_take_drop (set.upTo_nodup bound) (le_refl limit)
  rw [kept]
  calc (set.upTo bound).filter
        (fun member => decide (member ∉ (set.upTo bound).take limit))
      = ((set.upTo bound).take limit ++ (set.upTo bound).drop limit).filter
        (fun member => decide (member ∉ (set.upTo bound).take limit)) := by
        rw [List.take_append_drop]
    _ = (set.upTo bound).drop limit := by
        rw [List.filter_append, List.filter_eq_nil_iff.mpr (by simp),
          List.nil_append, List.filter_eq_self]
        intro member left
        exact decide_eq_true fun taken => apart taken left

/-- What is beyond the bound stays. -/
theorem above_removed :
    ((set.rangeByScore bound limit).foldl remove set).above bound =
      set.above bound := by
  apply eq_of_entries
  change List.filter _ ((set.rangeByScore bound limit).foldl remove
    set).entries = List.filter _ set.entries
  rw [foldl_remove_entries, List.filter_filter]
  refine List.filter_congr fun entry member => ?_
  rw [← Bool.decide_and, decide_eq_decide]
  refine and_iff_left_of_imp fun beyond listed => ?_
  obtain ⟨score, found, within⟩ := score?_of_mem_rangeByScore listed
  rw [(set.score?_eq_some_iff entry.1 entry.2).mpr member] at found
  cases found
  omega

end SortedSet

end SortedSets
