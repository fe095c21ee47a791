import WebhookDelivery.Library.Program
import WebhookDelivery.Library.Run

/-!
# Weakest preconditions of programs

A world that answers every call in one way gives a program one course.  `Leads`
is the weakest precondition of a postcondition along this course, with one rule
for each way in which programs are put together.  A transition system that lets
one process act alone follows it.
-/

namespace Concurrency

namespace Program

variable {Call : Type} {Reply : Call → Type} {Failure Value Result World : Type}
variable
  (answer : (request : Call) → World → Except Failure (Reply request) × World)

/-- Run from a world that nobody else changes, the program ends with an outcome
and a world that satisfy `post`. -/
def Leads (post : Except Failure Value → World → Prop) :
    Program Call Reply Failure Value → World → Prop
  | .pure value, world => post (.ok value) world
  | .throw failure, world => post (.error failure) world
  | .call request next rescue, world =>
      match (answer request world).1 with
      | .ok reply => Leads post (next reply) (answer request world).2
      | .error failure => Leads post (rescue failure) (answer request world).2

variable {answer}

@[simp]
theorem leads_pure {post : Except Failure Value → World → Prop} {value : Value}
    {world : World} :
    (Pure.pure value : Program Call Reply Failure Value).Leads answer post
      world ↔ post (.ok value) world :=
  Iff.rfl

@[simp]
theorem leads_throw {post : Except Failure Value → World → Prop}
    {failure : Failure} {world : World} :
    (throw failure : Program Call Reply Failure Value).Leads answer post
      world ↔ post (.error failure) world :=
  Iff.rfl

theorem leads_call {post : Except Failure Value → World → Prop}
    {request : Call} {next : Reply request → Program Call Reply Failure Value}
    {rescue : Failure → Program Call Reply Failure Value} {world : World} :
    (call request next rescue).Leads answer post world ↔
      (resume next rescue (answer request world).1).Leads answer post
        (answer request world).2 := by
  rw [Leads]
  cases (answer request world).1 <;> rfl

@[simp]
theorem leads_perform {request : Call}
    {post : Except Failure (Reply request) → World → Prop} {world : World} :
    (perform request : Program Call Reply Failure (Reply request)).Leads answer
      post world ↔ post (answer request world).1 (answer request world).2 := by
  unfold perform
  rw [leads_call]
  cases (answer request world).1 <;> rfl

/-- A sequence ends as its second program does, unless the first one throws. -/
@[simp]
theorem leads_bind {post : Except Failure Result → World → Prop}
    {program : Program Call Reply Failure Value}
    {rest : Value → Program Call Reply Failure Result} {world : World} :
    (program >>= rest).Leads answer post world ↔
      program.Leads answer (fun outcome after =>
        match outcome with
        | .ok value => (rest value).Leads answer post after
        | .error failure => post (.error failure) after) world := by
  rw [bind_eq]
  induction program generalizing world with
  | pure value => exact Iff.rfl
  | throw failure => exact Iff.rfl
  | call request next rescue nextIH rescueIH =>
      rw [Program.bind, leads_call, leads_call]
      cases (answer request world).1 with
      | ok reply => exact nextIH reply
      | error failure => exact rescueIH failure

@[simp]
theorem leads_map {post : Except Failure Result → World → Prop}
    {program : Program Call Reply Failure Value} {function : Value → Result}
    {world : World} :
    (function <$> program).Leads answer post world ↔
      program.Leads answer (fun outcome after =>
        post (outcome.map function) after) world := by
  rw [map_eq, ← bind_eq, leads_bind]
  refine iff_of_eq (congrArg (program.Leads answer · world) ?_)
  funext outcome after
  cases outcome <;> rfl

@[simp]
theorem leads_tryCatch {post : Except Failure Value → World → Prop}
    {program : Program Call Reply Failure Value}
    {handler : Failure → Program Call Reply Failure Value} {world : World} :
    (program.tryCatch handler).Leads answer post world ↔
      program.Leads answer (fun outcome after =>
        match outcome with
        | .ok value => post (.ok value) after
        | .error failure => (handler failure).Leads answer post after)
        world := by
  induction program generalizing world with
  | pure value => exact Iff.rfl
  | throw failure => exact Iff.rfl
  | call request next rescue nextIH rescueIH =>
      rw [tryCatch, leads_call, leads_call]
      cases (answer request world).1 with
      | ok reply => exact nextIH reply
      | error failure => exact rescueIH failure

@[simp]
theorem leads_attempt
    {post : Except Failure (Except Failure Value) → World → Prop}
    {program : Program Call Reply Failure Value} {world : World} :
    program.attempt.Leads answer post world ↔
      program.Leads answer (fun outcome after => post (.ok outcome) after)
        world := by
  induction program generalizing world with
  | pure value => exact Iff.rfl
  | throw failure => exact Iff.rfl
  | call request next rescue nextIH rescueIH =>
      rw [attempt, leads_call, leads_call]
      cases (answer request world).1 with
      | ok reply => exact nextIH reply
      | error failure => exact rescueIH failure

theorem Leads.mono {post wider : Except Failure Value → World → Prop}
    {program : Program Call Reply Failure Value} {world : World}
    (leads : program.Leads answer post world)
    (widen : ∀ outcome after, post outcome after → wider outcome after) :
    program.Leads answer wider world := by
  induction program generalizing world with
  | pure value => exact widen _ _ leads
  | throw failure => exact widen _ _ leads
  | call request next rescue nextIH rescueIH =>
      rw [leads_call] at leads ⊢
      cases outcome : (answer request world).1 with
      | ok reply =>
          rw [outcome] at leads
          exact nextIH reply leads
      | error failure =>
          rw [outcome] at leads
          exact rescueIH failure leads

/-- A call that is answered, and what follows the answer. -/
theorem Leads.step {request : Call} {reply : Reply request}
    {rest : Reply request → Program Call Reply Failure Result}
    {post : Except Failure Result → World → Prop} {world : World}
    (outcome : (answer request world).1 = .ok reply)
    (following : (rest reply).Leads answer post (answer request world).2) :
    ((perform request).bind rest).Leads answer post world := by
  rw [← bind_eq, leads_bind, leads_perform, outcome]
  exact following

/-- A program that does not throw, and what follows it. -/
theorem Leads.bind {program : Program Call Reply Failure Value}
    {rest : Value → Program Call Reply Failure Result}
    {post : Except Failure Result → World → Prop} {world : World}
    (leads : program.Leads answer (fun outcome after =>
      ∃ value, outcome = .ok value ∧ (rest value).Leads answer post after)
        world) :
    (program.bind rest).Leads answer post world := by
  rw [← bind_eq, leads_bind]
  apply leads.mono
  rintro _ after ⟨value, rfl, following⟩
  exact following

/-- A program that has come to its end. -/
def ended : Except Failure Value → Program Call Reply Failure Value
  | .ok value => .pure value
  | .error failure => .throw failure

/-- When a system takes the same action again and again, and every time this
answers the call at which the program is suspended, then it reaches the
postcondition of the program. -/
theorem Leads.run {State Action : Type}
    {step : State → Action → Option State} {action : Action}
    {shows : State → Program Call Reply Failure Value → World → Prop}
    (moves : ∀ {state request next rescue world},
      shows state (call request next rescue) world →
        ∃ after, step state action = some after ∧
          shows after (resume next rescue (answer request world).1)
            (answer request world).2)
    {post : Except Failure Value → World → Prop}
    {program : Program Call Reply Failure Value} {world : World}
    (leads : program.Leads answer post world) {state : State}
    (shown : shows state program world) :
    ∃ n after outcome left,
      Concurrency.run step state (List.replicate n action) = some after ∧
        shows after (ended outcome) left ∧ post outcome left := by
  induction program generalizing world state with
  | pure value => exact ⟨0, state, .ok value, world, rfl, shown, leads⟩
  | throw failure => exact ⟨0, state, .error failure, world, rfl, shown, leads⟩
  | call request next rescue nextIH rescueIH =>
      obtain ⟨middle, taken, shownNext⟩ := moves shown
      rw [leads_call] at leads
      have later : ∃ n after outcome left,
          Concurrency.run step middle (List.replicate n action) =
              some after ∧
            shows after (ended outcome) left ∧ post outcome left := by
        cases outcome : (answer request world).1 with
        | ok reply =>
            rw [outcome] at leads shownNext
            exact nextIH reply leads shownNext
        | error failure =>
            rw [outcome] at leads shownNext
            exact rescueIH failure leads shownNext
      obtain ⟨n, after, outcome, left, runs, ends⟩ := later
      refine ⟨n + 1, after, outcome, left, ?_, ends⟩
      rw [List.replicate_succ]
      exact Option.bind_eq_some_iff.mpr ⟨middle, taken, runs⟩

end Program

end Concurrency
