import WebhookDelivery.Library.Program
import WebhookDelivery.Library.Run

/-!
# Two runs side by side

Two programs are twins when they make corresponding calls, go on as twins after
corresponding replies, and end with corresponding values.  Two systems go in
step when corresponding actions lead from corresponding states to corresponding
states.
-/

namespace Concurrency

namespace Program

variable {Call : Type} {Reply : Call → Type} {Failure : Type}
  {Value Other Result OtherResult : Type}

/-- The programs make corresponding calls, and go on and end in
correspondence. -/
inductive Twins (asks : Call → Call → Prop)
    (answers : (request other : Call) → Reply request → Reply other → Prop)
    (values : Value → Other → Prop) :
    Program Call Reply Failure Value →
      Program Call Reply Failure Other → Prop
  | pure {value other} (same : values value other) :
      Twins asks answers values (.pure value) (.pure other)
  | throw {failure} : Twins asks answers values (.throw failure) (.throw failure)
  | call {request otherRequest next otherNext rescue otherRescue}
      (asked : asks request otherRequest)
      (replied : ∀ {reply other}, answers request otherRequest reply other →
        Twins asks answers values (next reply) (otherNext other))
      (failed : ∀ failure,
        Twins asks answers values (rescue failure) (otherRescue failure)) :
      Twins asks answers values (.call request next rescue)
        (.call otherRequest otherNext otherRescue)

/-- Outcomes that correspond: the same failure, or values that correspond. -/
def TwinOutcomes (values : Value → Other → Prop) :
    Except Failure Value → Except Failure Other → Prop
  | .ok value, .ok other => values value other
  | .error failure, .error other => failure = other
  | _, _ => False

theorem TwinOutcomes.eq {values : Value → Value → Prop}
    {outcome other : Except Failure Value}
    (same : TwinOutcomes values outcome other)
    (exact : ∀ {value answer}, values value answer → value = answer) :
    outcome = other := by
  cases outcome with
  | ok value =>
      cases other with
      | ok answer => exact congrArg Except.ok (exact same)
      | error failure => cases same
  | error failure =>
      cases other with
      | ok answer => cases same
      | error failure => exact congrArg Except.error same

namespace Twins

variable {asks : Call → Call → Prop}
  {answers : (request other : Call) → Reply request → Reply other → Prop}
  {values : Value → Other → Prop} {results : Result → OtherResult → Prop}
  {program : Program Call Reply Failure Value}
  {other : Program Call Reply Failure Other}

theorem bind {rest : Value → Program Call Reply Failure Result}
    {otherRest : Other → Program Call Reply Failure OtherResult}
    (first : Twins asks answers values program other)
    (second : ∀ {value otherValue}, values value otherValue →
      Twins asks answers results (rest value) (otherRest otherValue)) :
    Twins asks answers results (program.bind rest) (other.bind otherRest) := by
  induction first with
  | pure same => exact second same
  | throw => exact .throw
  | call asked _ _ repliedIH failedIH =>
      exact .call asked (fun same => repliedIH same) failedIH

theorem tryCatch {handler : Failure → Program Call Reply Failure Value}
    {otherHandler : Failure → Program Call Reply Failure Other}
    (first : Twins asks answers values program other)
    (second : ∀ failure,
      Twins asks answers values (handler failure) (otherHandler failure)) :
    Twins asks answers values (program.tryCatch handler)
      (other.tryCatch otherHandler) := by
  induction first with
  | pure same => exact .pure same
  | throw => exact second _
  | call asked _ _ repliedIH failedIH =>
      exact .call asked (fun same => repliedIH same) failedIH

theorem attempt (twins : Twins asks answers values program other) :
    Twins asks answers (TwinOutcomes values) program.attempt other.attempt := by
  induction twins with
  | pure same => exact .pure same
  | throw => exact .pure rfl
  | call asked _ _ repliedIH failedIH =>
      exact .call asked (fun same => repliedIH same) failedIH

theorem perform {request otherRequest : Call}
    (asked : asks request otherRequest) :
    Twins asks answers (answers request otherRequest)
      (perform request : Program Call Reply Failure (Reply request))
      (Program.perform otherRequest) :=
  .call asked (fun same => .pure same) fun _ => .throw

theorem mono {wider : Value → Other → Prop}
    (widen : ∀ value otherValue, values value otherValue →
      wider value otherValue)
    (twins : Twins asks answers values program other) :
    Twins asks answers wider program other := by
  induction twins with
  | pure same => exact .pure (widen _ _ same)
  | throw => exact .throw
  | call asked _ _ repliedIH failedIH =>
      exact .call asked (fun same => repliedIH same) failedIH

/-- A program is its own twin when each of its calls corresponds to itself, and
only equal replies to it correspond. -/
theorem of_within {permitted : Call → Prop}
    {program : Program Call Reply Failure Value}
    (asked : ∀ request, permitted request → asks request request)
    (exact : ∀ request, permitted request → ∀ {reply other},
      answers request request reply other → reply = other)
    (within : program.Within permitted) :
    Twins asks answers Eq program program := by
  induction program with
  | pure value => exact .pure rfl
  | throw failure => exact .throw
  | call request next rescue nextIH rescueIH =>
      refine .call (asked request within.1) (fun {reply other} same => ?_)
        fun failure => rescueIH failure (within.2.2 failure)
      have equal := exact request within.1 same
      subst equal
      exact nextIH reply (within.2.1 reply)

/-- Twins go on as twins after corresponding outcomes. -/
theorem resume {request otherRequest : Call}
    {next : Reply request → Program Call Reply Failure Value}
    {otherNext : Reply otherRequest → Program Call Reply Failure Other}
    {rescue : Failure → Program Call Reply Failure Value}
    {otherRescue : Failure → Program Call Reply Failure Other}
    {outcome : Except Failure (Reply request)}
    {otherOutcome : Except Failure (Reply otherRequest)}
    (replied : ∀ {reply other}, answers request otherRequest reply other →
      Twins asks answers values (next reply) (otherNext other))
    (failed : ∀ failure,
      Twins asks answers values (rescue failure) (otherRescue failure))
    (same : TwinOutcomes (answers request otherRequest) outcome otherOutcome) :
    Twins asks answers values (Program.resume next rescue outcome)
      (Program.resume otherNext otherRescue otherOutcome) := by
  cases outcome with
  | ok reply =>
      cases otherOutcome with
      | ok other => exact replied same
      | error failure => cases same
  | error failure =>
      cases otherOutcome with
      | ok other => cases same
      | error other =>
          cases same
          exact failed failure

end Twins

end Program

section Lockstep

variable {State Action Observation : Type}
  {step : State → Action → Option State} {relates : State → State → Prop}
  {view : Action → Observation}

/-- A run, and actions that look the same as its own, go in step. -/
theorem run_lockstep
    (locked : ∀ {before twin action other after}, relates before twin →
      view action = view other → step before action = some after →
        ∃ next, step twin other = some next ∧ relates after next)
    {actions others : List Action} (same : actions.map view = others.map view)
    {before twin after : State} (related : relates before twin)
    (runs : run step before actions = some after) :
    ∃ final, run step twin others = some final ∧ relates after final := by
  induction actions generalizing others before twin with
  | nil =>
      cases List.map_eq_nil_iff.mp same.symm
      cases runs
      exact ⟨twin, rfl, related⟩
  | cons action actions ih =>
      obtain ⟨other, rest, rfl, alike, sameRest⟩ :=
        List.map_eq_cons_iff.mp same.symm
      obtain ⟨middle, taken, remaining⟩ := Option.bind_eq_some_iff.mp runs
      obtain ⟨next, follows, relatedNext⟩ := locked related alike.symm taken
      obtain ⟨final, completes, relatedFinal⟩ :=
        ih sameRest.symm relatedNext remaining
      exact ⟨final, Option.bind_eq_some_iff.mpr ⟨next, follows, completes⟩,
        relatedFinal⟩

end Lockstep

end Concurrency
