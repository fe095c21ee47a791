import WebhookDelivery.Types
import Mathlib.Data.List.Induction

/-!
# The retry policy

What is meant to become of one job, told by what happens to it and without the
stores: how many attempts it has used up, how many deliveries are on record,
and where it waits.
-/

namespace WebhookDelivery

/-- Where a job is that nobody works on. -/
inductive Position
  | ready
  | delayed
  | deadLettered
  | gone
  deriving DecidableEq

/-- What happens to a job: it becomes ready, is delayed or is put off by one of
the gates, a delivery ends with a status or without one, or a replay resets
it. -/
inductive Occurrence
  | ready
  | delayed
  | deferred
  | delivered (status : Option Nat)
  | reset
  deriving DecidableEq

namespace Occurrence

def isDelivery : Occurrence → Bool
  | .delivered _ => true
  | _ => false

/-- The deliveries after the last reset; occurrences are in order. -/
def deliveriesSinceReset (occurrences : List Occurrence) : Nat :=
  (occurrences.reverse.takeWhile fun one => one ≠ .reset).countP isDelivery

end Occurrence

/-- Any 2xx. -/
def accepts (status : Option Nat) : Bool :=
  status.any fun code => 200 ≤ code && code < 300

/-- A response that says that another attempt is of no use. -/
def rejects (status : Option Nat) : Bool :=
  status.any fun code => code < 500 && code ≠ 408 && code ≠ 429

/-- How far a job has come. -/
structure Course where
  state : JobState
  attempts : Nat
  /-- Deliveries on record. -/
  records : Nat
  position : Position
  deriving DecidableEq

namespace Course

/-- A job that has been created and not been placed yet. -/
def fresh : Course where
  state := .queued
  attempts := 0
  records := 0
  position := .gone

/-- A delivery spends an attempt and is put on record. -/
def spend (course : Course) : Course :=
  { course with
    attempts := course.attempts + 1
    records := course.records + 1 }

def next (budget : Nat) (course : Course) : Occurrence → Course
  | .ready => { course with position := .ready }
  | .delayed => { course with position := .delayed }
  | .deferred => { course with state := .queued, position := .delayed }
  | .delivered status =>
      if accepts status then
        { course.spend with state := .succeeded, position := .gone }
      else if rejects status ∨ budget ≤ course.attempts + 1 then
        { course.spend with state := .dead, position := .deadLettered }
      else
        { course.spend with state := .queued, position := .delayed }
  | .reset =>
      { course with state := .queued, attempts := 0, position := .ready }

/-- The course of a job to which all of this has happened, in this order. -/
def after (budget : Nat) (occurrences : List Occurrence) : Course :=
  occurrences.foldl (next budget) fresh

variable {budget : Nat} {course : Course}

theorem next_attempts (occurrence : Occurrence) :
    (course.next budget occurrence).attempts =
      if occurrence = .reset then 0
      else course.attempts + if occurrence.isDelivery then 1 else 0 := by
  cases occurrence with
  | delivered status =>
      simp only [next, Occurrence.isDelivery, reduceCtorEq, if_false, if_true]
      split
      · rfl
      · split <;> rfl
  | _ => rfl

@[simp]
theorem delivered_attempts (status : Option Nat) :
    (course.next budget (.delivered status)).attempts = course.attempts + 1 :=
  next_attempts (.delivered status)

@[simp]
theorem delivered_records (status : Option Nat) :
    (course.next budget (.delivered status)).records = course.records + 1 := by
  simp only [next]
  split
  · rfl
  · split <;> rfl

theorem after_append (occurrences : List Occurrence) (last : Occurrence) :
    after budget (occurrences ++ [last]) =
      (after budget occurrences).next budget last := by
  rw [after, List.foldl_append]
  rfl

/-- The attempts of a course are the deliveries since its last reset. -/
theorem after_attempts (occurrences : List Occurrence) :
    (after budget occurrences).attempts =
      Occurrence.deliveriesSinceReset occurrences := by
  induction occurrences using List.reverseRecOn with
  | nil => rfl
  | append_singleton occurrences last ih =>
      rw [after_append, next_attempts, ih]
      unfold Occurrence.deliveriesSinceReset
      rw [List.reverse_append]
      by_cases reset : last = .reset
      · subst reset
        rfl
      · rw [if_neg reset]
        simp [reset, List.countP_cons]

/-- A waiting job is queued and has attempts left, one that is dead-lettered
is dead, and one that is gone has succeeded. -/
def Sound (budget : Nat) (course : Course) : Prop :=
  course.attempts ≤ budget ∧
    match course.position with
    | .ready | .delayed => course.state = .queued ∧ course.attempts < budget
    | .deadLettered => course.state = .dead
    | .gone => course.state = .succeeded

/-- A delivery of a job that has attempts left ends in a sound course. -/
theorem sound_delivered (left : course.attempts < budget)
    (status : Option Nat) :
    (course.next budget (.delivered status)).Sound budget := by
  simp only [next]
  split
  · exact ⟨left, rfl⟩
  next refused =>
    split
    · exact ⟨left, rfl⟩
    next retried =>
      rw [not_or, Nat.not_le] at retried
      exact ⟨left, rfl, retried.2⟩

theorem sound_reset (positive : 0 < budget) :
    (course.next budget .reset).Sound budget :=
  ⟨Nat.zero_le _, rfl, positive⟩

end Course

end WebhookDelivery
