import WebhookDelivery.Library.Program

/-!
# Programs that do not tell replies apart

A program that makes the same calls whichever of several replies it gets, and
ends with results that are as alike as the replies, does not pass on what
distinguishes them.
-/

namespace Concurrency

namespace Program

variable {Call : Type} {Reply : Call → Type} {Failure Value Result : Type}

/-- The two programs make the same calls, go on alike after replies that are
alike, and end alike. -/
inductive Alike
    (replies : (request : Call) → Reply request → Reply request → Prop)
    (values : Value → Value → Prop) :
    Program Call Reply Failure Value → Program Call Reply Failure Value → Prop
  | pure {value other} (same : values value other) :
      Alike replies values (.pure value) (.pure other)
  | throw {failure} : Alike replies values (.throw failure) (.throw failure)
  | call {request next otherNext rescue otherRescue}
      (replied : ∀ {reply other}, replies request reply other →
        Alike replies values (next reply) (otherNext other))
      (failed : ∀ failure,
        Alike replies values (rescue failure) (otherRescue failure)) :
      Alike replies values (.call request next rescue)
        (.call request otherNext otherRescue)

/-- The same failure, or values that are alike. -/
inductive AlikeOutcomes (values : Value → Value → Prop) :
    Except Failure Value → Except Failure Value → Prop
  | ok {value other} (same : values value other) :
      AlikeOutcomes values (.ok value) (.ok other)
  | error {failure} : AlikeOutcomes values (.error failure) (.error failure)

namespace Alike

variable {replies : (request : Call) → Reply request → Reply request → Prop}
  {values : Value → Value → Prop} {results : Result → Result → Prop}
  {program other : Program Call Reply Failure Value}

theorem bind {rest otherRest : Value → Program Call Reply Failure Result}
    (first : Alike replies values program other)
    (second : ∀ {value otherValue}, values value otherValue →
      Alike replies results (rest value) (otherRest otherValue)) :
    Alike replies results (program.bind rest) (other.bind otherRest) := by
  induction first with
  | pure same => exact second same
  | throw => exact .throw
  | call _ _ repliedIH failedIH =>
      exact .call (fun same => repliedIH same) fun failure => failedIH failure

theorem mono {wider : Value → Value → Prop}
    (widen : ∀ value other, values value other → wider value other)
    (same : Alike replies values program other) :
    Alike replies wider program other := by
  induction same with
  | pure same => exact .pure (widen _ _ same)
  | throw => exact .throw
  | call _ _ repliedIH failedIH =>
      exact .call (fun same => repliedIH same) fun failure => failedIH failure

/-- A program is like itself when it makes only calls with replies that are
alike when they are equal. -/
theorem of_within {permitted : Call → Prop}
    (exact : ∀ request, permitted request → ∀ {reply other},
      replies request reply other → reply = other)
    (within : program.Within permitted) :
    Alike replies Eq program program := by
  induction program with
  | pure value => exact .pure rfl
  | throw failure => exact .throw
  | call request next rescue nextIH rescueIH =>
      refine .call (fun {reply other} same => ?_) fun failure =>
        rescueIH failure (within.2.2 failure)
      have equal := exact request within.1 same
      subst equal
      exact nextIH reply (within.2.1 reply)

/-- Programs that are alike go on alike after outcomes that are alike. -/
theorem resume {request : Call}
    {next otherNext : Reply request → Program Call Reply Failure Value}
    {rescue otherRescue : Failure → Program Call Reply Failure Value}
    {outcome otherOutcome : Except Failure (Reply request)}
    (replied : ∀ {reply other}, replies request reply other →
      Alike replies values (next reply) (otherNext other))
    (failed : ∀ failure,
      Alike replies values (rescue failure) (otherRescue failure))
    (same : AlikeOutcomes (replies request) outcome otherOutcome) :
    Alike replies values (resume next rescue outcome)
      (Program.resume otherNext otherRescue otherOutcome) := by
  cases same with
  | ok same => exact replied same
  | error => exact failed _

end Alike

end Program

end Concurrency
