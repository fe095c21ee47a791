import WebhookDelivery.Library.Discipline

/-!
# Executions of a single program

A program is run from its first call to its end, in surroundings that decide
how each of its calls goes and what others do to the world in between.  A
sequential discipline describes such executions by the part of the world that
the others leave alone.
-/

namespace Concurrency

/-- How one call of a program goes. -/
inductive Turn (Choice Failure : Type)
  | answered (choice : Choice)
  /-- The call fails without effect. -/
  | refused (failure : Failure)
  /-- The call takes effect, but the answer is lost. -/
  | lost (choice : Choice) (failure : Failure)
  /-- The program is stopped before it makes the call. -/
  | stopped

/-- What others do to the world before the `n`-th call of a program, and how
that call goes. -/
structure Surroundings (World Choice Failure : Type) where
  others : Nat → World → World
  turn : Nat → Turn Choice Failure

/-- Nobody else does anything, and every call is answered alike. -/
def Surroundings.undisturbed {World Choice Failure : Type} (choice : Choice) :
    Surroundings World Choice Failure where
  others _ world := world
  turn _ := .answered choice

/-- What a program has done, how it has ended, if it was not stopped, and what
it has left behind. -/
structure Execution (Entry Failure Value World : Type) where
  /-- The calls that took effect, latest first. -/
  calls : List Entry
  ended : Option (Except Failure Value)
  world : World

variable {Call : Type} {Reply : Call → Type}
  {Failure Value World Choice Entry Aspect : Type}

section Execute

variable
  (answer : Choice → (request : Call) → World →
    Except Failure (Reply request) × World)
  (entry : (request : Call) → Except Failure (Reply request) → Entry)

/-- The execution of a program after `n` calls, with those that took effect in
`calls`. -/
def Program.execute (around : Surroundings World Choice Failure) :
    Program Call Reply Failure Value → Nat → World → List Entry →
      Execution Entry Failure Value World
  | .pure value, _, world, calls => ⟨calls, some (.ok value), world⟩
  | .throw failure, _, world, calls => ⟨calls, some (.error failure), world⟩
  | .call request next rescue, n, world, calls =>
      match around.turn n with
      | .answered choice =>
          match answer choice request (around.others n world) with
          | (.ok reply, after) =>
              execute around (next reply) (n + 1) after
                (entry request (.ok reply) :: calls)
          | (.error failure, after) =>
              execute around (rescue failure) (n + 1) after
                (entry request (.error failure) :: calls)
      | .refused failure =>
          execute around (rescue failure) (n + 1) (around.others n world) calls
      | .lost choice failure =>
          let result := answer choice request (around.others n world)
          execute around (rescue failure) (n + 1) result.2
            (entry request result.1 :: calls)
      | .stopped => ⟨calls, none, around.others n world⟩

/-- The rules for a program whose calls are all answered.  Of the world it
knows an aspect, which is `seen` there and which the others leave alone. -/
abbrev sequential (seen : World → Aspect → Prop) (permitted : Choice → Prop) :
    Discipline Call Reply Failure where
  View := Aspect × List Entry
  Rely before after := after = before
  rely_refl _ := rfl
  rely_trans := by
    rintro _ _ _ rfl rfl
    rfl
  Allowed view request := ∀ choice world, permitted choice →
    seen world view.1 → ∃ after, seen (answer choice request world).2 after
  Fallible _ _ := False
  Effect view request outcome after :=
    ∃ choice world, permitted choice ∧ seen world view.1 ∧
      (answer choice request world).1 = outcome ∧
      seen (answer choice request world).2 after.1 ∧
      after.2 = entry request outcome :: view.2
  lost view := view

variable {answer entry}

/-- A call whose failure is not caught. -/
theorem Program.execute_bind {around : Surroundings World Choice Failure}
    {request : Call} {rest : Reply request → Program Call Reply Failure Value}
    {n : Nat} {world : World} {calls : List Entry} :
    ((Program.perform request).bind rest).execute answer entry around n world
        calls =
      match around.turn n with
      | .answered choice =>
          match answer choice request (around.others n world) with
          | (.ok reply, after) => (rest reply).execute answer entry around
              (n + 1) after (entry request (.ok reply) :: calls)
          | (.error failure, after) =>
              ⟨entry request (.error failure) :: calls, some (.error failure),
                after⟩
      | .refused failure =>
          ⟨calls, some (.error failure), around.others n world⟩
      | .lost choice failure =>
          let result := answer choice request (around.others n world)
          ⟨entry request result.1 :: calls, some (.error failure), result.2⟩
      | .stopped => ⟨calls, none, around.others n world⟩ := by
  show (Program.call request rest .throw).execute answer entry around n world
    calls = _
  simp only [Program.execute]

end Execute

/-- The others leave every aspect that is seen of the world alone. -/
def Surroundings.Spare (around : Surroundings World Choice Failure)
    (seen : World → Aspect → Prop) : Prop :=
  ∀ n world aspect, seen world aspect → seen (around.others n world) aspect

/-- Every call is answered, by a choice with a property. -/
def Surroundings.Answer (around : Surroundings World Choice Failure)
    (permitted : Choice → Prop) : Prop :=
  ∀ n, ∃ choice, around.turn n = .answered choice ∧ permitted choice

section Sequential

variable
  {answer : Choice → (request : Call) → World →
    Except Failure (Reply request) × World}
  {entry : (request : Call) → Except Failure (Reply request) → Entry}
  {seen : World → Aspect → Prop} {permitted : Choice → Prop}
  {around : Surroundings World Choice Failure}

/-- A program that follows the sequential discipline ends as the discipline
says. -/
theorem Discipline.Follows.execute
    {program : Program Call Reply Failure Value} {world : World}
    {aspect : Aspect} {calls : List Entry}
    {post : Aspect × List Entry → Except Failure Value → Prop}
    (spare : around.Spare seen) (answered : around.Answer permitted)
    (sees : seen world aspect)
    (follows : (sequential answer entry seen permitted).Follows post program
      (aspect, calls)) (n : Nat) :
    let execution := program.execute answer entry around n world calls
    ∃ outcome aspect, execution.ended = some outcome ∧
      seen execution.world aspect ∧
        post (aspect, execution.calls) outcome := by
  induction program generalizing n world aspect calls with
  | pure value => exact ⟨_, aspect, rfl, sees, follows _ rfl⟩
  | throw failure => exact ⟨_, aspect, rfl, sees, follows _ rfl⟩
  | call request next rescue nextIH rescueIH =>
      obtain ⟨choice, turn, allowed⟩ := answered n
      have meets := spare n world aspect sees
      obtain ⟨allows, _, completed⟩ := follows _ rfl
      obtain ⟨after, seesAfter⟩ := allows choice _ allowed meets
      have effect := completed _ (after, _)
        ⟨choice, around.others n world, allowed, meets, rfl, seesAfter, rfl⟩
      simp only [Program.execute, turn]
      split
      next reply left answers =>
        rw [answers] at effect seesAfter
        exact nextIH reply seesAfter (effect.2.2 reply rfl) (n + 1)
      next failure left answers =>
        rw [answers] at effect seesAfter
        exact rescueIH failure seesAfter (effect.2.1 failure rfl) (n + 1)

namespace Sequential

variable {Result : Type} {view : Aspect × List Entry}
  {post : Aspect × List Entry → Except Failure Value → Prop}

theorem follows_pure {value : Value} (ends : post view (.ok value)) :
    (sequential answer entry seen permitted).Follows post
      (.pure value : Program Call Reply Failure Value) view := by
  rintro _ rfl
  exact ends

theorem follows_throw {failure : Failure}
    (ends : post view (.error failure)) :
    (sequential answer entry seen permitted).Follows post
      (.throw failure : Program Call Reply Failure Value) view := by
  rintro _ rfl
  exact ends

/-- One call, and what follows each of its answers. -/
theorem follows_call {request : Call}
    {rest : Reply request → Program Call Reply Failure Value}
    (allows : ∀ choice world, permitted choice → seen world view.1 →
      ∃ after, seen (answer choice request world).2 after)
    (answers : ∀ choice world after, permitted choice → seen world view.1 →
      let result := answer choice request world
      let now := (after, entry request result.1 :: view.2)
      seen result.2 after →
        match result.1 with
        | .ok reply => (sequential answer entry seen permitted).Follows post
            (rest reply) now
        | .error failure => post now (.error failure)) :
    (sequential answer entry seen permitted).Follows post
      ((Program.perform request).bind rest) view := by
  rintro _ rfl
  refine ⟨allows, False.elim, ?_⟩
  rintro _ ⟨after, _⟩ ⟨choice, world, allowed, same, rfl, sees, rfl⟩
  have following := answers choice world after allowed same sees
  refine ⟨False.elim, ?_, ?_⟩
  · intro failure outcome
    simp only [outcome] at following ⊢
    exact follows_throw following
  · intro reply outcome
    simp only [outcome] at following ⊢
    exact following

end Sequential

end Sequential

end Concurrency
