import Mathlib.Init

/-!
# Programs that suspend at fallible calls

A program is a tree of calls to some outside world.  At every call it is
suspended: the world answers with a reply, after which the program continues,
or the call fails, after which the program continues in its rescue branch.
Everything between two calls happens at once, which is the granularity at
which processes sharing the world can interleave.
-/

namespace Concurrency

/-- A computation of a `Value` whose only interaction with its surroundings is
a sequence of calls; `rescue` is the continuation after a failed call. -/
inductive Program (Call : Type) (Reply : Call → Type)
    (Failure Value : Type) : Type
  | pure (value : Value)
  | throw (failure : Failure)
  | call (request : Call)
      (next : Reply request → Program Call Reply Failure Value)
      (rescue : Failure → Program Call Reply Failure Value)

namespace Program

variable {Call : Type} {Reply : Call → Type} {Failure Value Result : Type}

def bind : Program Call Reply Failure Value →
    (Value → Program Call Reply Failure Result) →
      Program Call Reply Failure Result
  | .pure value, rest => rest value
  | .throw failure, _ => .throw failure
  | .call request next rescue, rest =>
      .call request (fun reply => (next reply).bind rest)
        (fun failure => (rescue failure).bind rest)

/-- Run a handler on the failures of a program. -/
def tryCatch : Program Call Reply Failure Value →
    (Failure → Program Call Reply Failure Value) →
      Program Call Reply Failure Value
  | .pure value, _ => .pure value
  | .throw failure, handler => handler failure
  | .call request next rescue, handler =>
      .call request (fun reply => (next reply).tryCatch handler)
        (fun failure => (rescue failure).tryCatch handler)

/-- Turn the failures of a program into values. -/
def attempt : Program Call Reply Failure Value →
    Program Call Reply Failure (Except Failure Value)
  | .pure value => .pure (.ok value)
  | .throw failure => .pure (.error failure)
  | .call request next rescue =>
      .call request (fun reply => (next reply).attempt)
        (fun failure => (rescue failure).attempt)

/-- The program that makes one call and returns its reply. -/
def perform (request : Call) :
    Program Call Reply Failure (Reply request) :=
  .call request .pure .throw

instance : Monad (Program Call Reply Failure) where
  pure := .pure
  bind := bind

instance : MonadExceptOf Failure (Program Call Reply Failure) where
  throw := .throw
  tryCatch := tryCatch

theorem bind_eq (program : Program Call Reply Failure Value)
    (rest : Value → Program Call Reply Failure Result) :
    program >>= rest = program.bind rest :=
  rfl

theorem map_eq (function : Value → Result)
    (program : Program Call Reply Failure Value) :
    function <$> program =
      program.bind fun value => .pure (function value) :=
  rfl

/-- The continuation of a call once its outcome is known. -/
def resume {request : Call}
    (next : Reply request → Program Call Reply Failure Value)
    (rescue : Failure → Program Call Reply Failure Value) :
    Except Failure (Reply request) → Program Call Reply Failure Value
  | .ok reply => next reply
  | .error failure => rescue failure

/-- The call at which a program is suspended, if it has not ended. -/
def request? : Program Call Reply Failure Value → Option Call
  | .call request _ _ => some request
  | _ => none

/-- Every call the program can make, after any replies and failures, lies in
`permitted`. -/
def Within (permitted : Call → Prop) :
    Program Call Reply Failure Value → Prop
  | .pure _ => True
  | .throw _ => True
  | .call request next rescue =>
      permitted request ∧ (∀ reply, (next reply).Within permitted) ∧
        ∀ failure, (rescue failure).Within permitted

variable {permitted : Call → Prop}

theorem Within.bind {program : Program Call Reply Failure Value}
    {rest : Value → Program Call Reply Failure Result}
    (first : program.Within permitted)
    (second : ∀ value, (rest value).Within permitted) :
    (program.bind rest).Within permitted := by
  induction program with
  | pure value => exact second value
  | throw failure => trivial
  | call request next rescue nextIH rescueIH =>
      exact ⟨first.1, fun reply => nextIH reply (first.2.1 reply),
        fun failure => rescueIH failure (first.2.2 failure)⟩

theorem Within.tryCatch {program : Program Call Reply Failure Value}
    {handler : Failure → Program Call Reply Failure Value}
    (first : program.Within permitted)
    (second : ∀ failure, (handler failure).Within permitted) :
    (program.tryCatch handler).Within permitted := by
  induction program with
  | pure value => trivial
  | throw failure => exact second failure
  | call request next rescue nextIH rescueIH =>
      exact ⟨first.1, fun reply => nextIH reply (first.2.1 reply),
        fun failure => rescueIH failure (first.2.2 failure)⟩

theorem Within.attempt {program : Program Call Reply Failure Value}
    (within : program.Within permitted) :
    program.attempt.Within permitted := by
  induction program with
  | pure value => trivial
  | throw failure => trivial
  | call request next rescue nextIH rescueIH =>
      exact ⟨within.1, fun reply => nextIH reply (within.2.1 reply),
        fun failure => rescueIH failure (within.2.2 failure)⟩

theorem Within.perform {request : Call} (member : permitted request) :
    (perform request : Program Call Reply Failure (Reply request)).Within
      permitted :=
  ⟨member, fun _ => trivial, fun _ => trivial⟩

theorem Within.mono {wider : Call → Prop}
    {program : Program Call Reply Failure Value}
    (within : program.Within permitted)
    (widen : ∀ request, permitted request → wider request) :
    program.Within wider := by
  induction program with
  | pure value => trivial
  | throw failure => trivial
  | call request next rescue nextIH rescueIH =>
      exact ⟨widen request within.1, fun reply => nextIH reply (within.2.1 reply),
        fun failure => rescueIH failure (within.2.2 failure)⟩

theorem Within.all (program : Program Call Reply Failure Value) :
    program.Within fun _ => True := by
  induction program with
  | pure value => trivial
  | throw failure => trivial
  | call request next rescue nextIH rescueIH =>
      exact ⟨trivial, nextIH, rescueIH⟩

end Program

end Concurrency
