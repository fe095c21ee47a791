import WebhookDelivery.Library.Run
import Mathlib.Data.List.Nodup

/-!
# Permits

Some events of a history leave their process with a permit, some without one,
and a process uses its permit up.  However many processes take part, what is
used in a stretch of the history is covered by the permits held at its start
and those granted in it; and what is granted is booked step by step.
-/

namespace Permits

variable {Event Pid : Type}

/-- Who makes an event, and whether it leaves its process with a permit, where
it decides that. -/
structure Scheme (Event Pid : Type) where
  owner : Event → Pid
  holds? : Event → Option Bool

/-- Whether these events, latest first, leave their process with a permit. -/
def holding (holds? : Event → Option Bool) : List Event → Bool
  | [] => false
  | event :: history => (holds? event).getD (holding holds? history)

/-- How often the events of a history are uses, each in view of what was
before. -/
def used (uses : Event → List Event → Bool) : List Event → Nat
  | [] => 0
  | event :: history => used uses history + if uses event history then 1 else 0

theorem holding_map {Other : Type} (holds? : Other → Option Bool)
    (view : Event → Other) (history : List Event) :
    holding holds? (history.map view) =
      holding (fun event => holds? (view event)) history := by
  induction history with
  | nil => rfl
  | cons event history ih => rw [List.map_cons, holding, holding, ih]

namespace Scheme

variable (scheme : Scheme Event Pid)

/-- The permits that a history grants. -/
def granted (history : List Event) : Nat :=
  history.countP fun event => decide (scheme.holds? event = some true)

/-- In a run of a system that keeps its history, an account that every step
books the permits of is booked with all of them at the end. -/
theorem granted_of_run {State Action : Type}
    {step : State → Action → Option State} {history : State → List Event}
    (account : Nat → State → Prop) {allowed : State → Action → Prop}
    (booked : ∀ {spent before action after}, account spent before →
      allowed before action → step before action = some after →
        ∃ window, history after = window ++ history before ∧
          account (spent + scheme.granted window) after)
    {actions : List Action} {spent : Nat} {before after : State}
    (opened : account spent before)
    (runs : Concurrency.run step before actions = some after)
    (meets : ∀ transition ∈ Concurrency.transitions step before actions,
      allowed transition.before transition.action) :
    ∃ window, history after = window ++ history before ∧
      account (spent + scheme.granted window) after := by
  induction actions generalizing before spent with
  | nil =>
      cases runs
      exact ⟨[], rfl, opened⟩
  | cons action actions ih =>
      obtain ⟨next, taken, rest⟩ := Option.bind_eq_some_iff.mp runs
      rw [Concurrency.transitions_cons taken, List.forall_mem_cons] at meets
      obtain ⟨first, grows, kept⟩ := booked opened meets.1 taken
      obtain ⟨window, growsOn, ends⟩ := ih kept rest meets.2
      refine ⟨window ++ first, by rw [growsOn, grows, List.append_assoc], ?_⟩
      have books : scheme.granted (window ++ first) =
          scheme.granted first + scheme.granted window := by
        rw [granted, List.countP_append, Nat.add_comm]
        rfl
      rw [books, ← Nat.add_assoc]
      exact ends

/-- Where every step keeps a condition under which it grants nothing, the run
grants nothing. -/
theorem ungranted_of_run {State Action : Type}
    {step : State → Action → Option State} {history : State → List Event}
    (condition : State → Prop) {allowed : State → Action → Prop}
    (kept : ∀ {before action after}, condition before →
      allowed before action → step before action = some after →
        ∃ window, history after = window ++ history before ∧
          condition after ∧ scheme.granted window = 0)
    {actions : List Action} {before after : State} (start : condition before)
    (runs : Concurrency.run step before actions = some after)
    (meets : ∀ transition ∈ Concurrency.transitions step before actions,
      allowed transition.before transition.action) :
    ∃ window, history after = window ++ history before ∧
      scheme.granted window = 0 := by
  obtain ⟨window, grows, _, none⟩ := scheme.granted_of_run
    (fun given state => condition state ∧ given = 0)
    (fun {given} _ _ _ holds permitted taken => by
      obtain ⟨window, grows, still, free⟩ := kept holds.1 permitted taken
      exact ⟨window, grows, still, by omega⟩)
    ⟨start, rfl⟩ runs meets
  exact ⟨window, grows, (Nat.zero_add _).symm.trans none⟩

variable [DecidableEq Pid]

/-- The processes that a history leaves with a permit. -/
def holders : List Event → List Pid
  | [] => []
  | event :: history =>
      let others := (holders history).filter fun pid => pid ≠ scheme.owner event
      match scheme.holds? event with
      | some true => scheme.owner event :: others
      | some false => others
      | none => holders history

theorem mem_holders (pid : Pid) (history : List Event) :
    pid ∈ scheme.holders history ↔ holding scheme.holds?
      (history.filter fun event => decide (scheme.owner event = pid)) =
        true := by
  induction history with
  | nil => simp [holders, holding]
  | cons event history ih =>
      by_cases own : scheme.owner event = pid
      · subst own
        simp only [holders, List.filter_cons, decide_true, if_true, holding]
        cases scheme.holds? event with
        | none => exact ih
        | some has => cases has <;> simp
      · have other : pid ≠ scheme.owner event := fun same => own same.symm
        simp only [holders, List.filter_cons, own, decide_false,
          Bool.false_eq_true, if_false, ← ih]
        cases scheme.holds? event with
        | none => exact Iff.rfl
        | some has => cases has <;> simp [other]

/-- Only a process with a permit makes a use, and loses its permit by it. -/
def Paid (uses : Event → List Event → Bool) (history : List Event) : Prop :=
  ∀ later event earlier, history = later ++ event :: earlier →
    uses event earlier = true → scheme.holds? event = some false ∧
      scheme.owner event ∈ scheme.holders earlier

/-- How often one process makes a use. -/
def usedBy (uses : Event → List Event → Bool) (pid : Pid)
    (history : List Event) : Nat :=
  used (fun event earlier =>
    decide (scheme.owner event = pid) && uses event earlier) history

variable {scheme} {uses : Event → List Event → Bool}

/-- The uses in a stretch of the history are covered by the permits held at its
start and those granted in it. -/
theorem used_add_holders_le (window : List Event) {history : List Event}
    (paid : scheme.Paid uses (window ++ history)) :
    used uses (window ++ history) +
        (scheme.holders (window ++ history)).length ≤
      used uses history + (scheme.holders history).length +
        scheme.granted window := by
  induction window with
  | nil => simp [granted]
  | cons event window ih =>
      have rest := ih fun later other earlier split =>
        paid (event :: later) other earlier (by rw [List.cons_append, split]; rfl)
      simp only [List.cons_append, used, holders, granted, List.countP_cons,
        decide_eq_true_eq] at rest ⊢
      have fewer := List.length_filter_le
        (fun pid => decide (pid ≠ scheme.owner event))
        (scheme.holders (window ++ history))
      by_cases makes : uses event (window ++ history) = true
      · obtain ⟨spends, held⟩ := paid [] event (window ++ history) rfl makes
        have drops : ((scheme.holders (window ++ history)).filter
            fun pid => decide (pid ≠ scheme.owner event)).length <
              (scheme.holders (window ++ history)).length := by
          rw [List.length_filter_lt_length_iff_exists]
          exact ⟨scheme.owner event, held, by simp⟩
        simp only [makes, if_true, spends]
        omega
      · simp only [makes, if_false, Bool.false_eq_true]
        cases scheme.holds? event with
        | none => simpa using rest
        | some has =>
            cases has
            · simp only [Option.some.injEq, Bool.false_eq_true, if_false]
              omega
            · simp only [if_true, List.length_cons]
              omega

/-- The uses that one process makes are covered by the permit it held at the
start, if it did, and those granted. -/
theorem usedBy_add_le (pid : Pid) (window : List Event) {history : List Event}
    (paid : scheme.Paid uses (window ++ history)) :
    scheme.usedBy uses pid (window ++ history) +
        (if pid ∈ scheme.holders (window ++ history) then 1 else 0) ≤
      scheme.usedBy uses pid history +
        (if pid ∈ scheme.holders history then 1 else 0) +
          scheme.granted window := by
  induction window with
  | nil => simp [granted]
  | cons event window ih =>
      have rest := ih fun later other earlier split =>
        paid (event :: later) other earlier (by rw [List.cons_append, split]; rfl)
      simp only [usedBy] at rest ⊢
      simp only [List.cons_append, used, granted, List.countP_cons,
        decide_eq_true_eq, mem_holders, List.filter_cons] at rest ⊢
      by_cases own : scheme.owner event = pid
      · by_cases makes : uses event (window ++ history) = true
        · obtain ⟨spends, held⟩ := paid [] event (window ++ history) rfl makes
          rw [own, mem_holders] at held
          simp only [own, makes, spends, held, decide_true, Bool.and_self,
            if_true, holding, Option.getD_some, Bool.false_eq_true, if_false]
            at rest ⊢
          omega
        · cases held : scheme.holds? event with
          | none =>
              simp only [own, makes, held, decide_true, if_true, holding,
                Option.getD_none, Bool.true_and, Bool.false_eq_true, if_false,
                reduceCtorEq] at rest ⊢
              omega
          | some has =>
              cases has <;>
                simp [own, makes, held, holding] at rest ⊢ <;> omega
      · simp only [own, decide_false, Bool.false_and, Bool.false_eq_true,
          if_false] at rest ⊢
        omega

end Scheme

end Permits
