import WebhookDelivery.Library.Program

/-!
# Rely-guarantee reasoning about programs

A discipline describes one process from its own side.  Its view is what it may
assume about the shared world; `Rely` is what the other processes may do to
that view between two of its calls, `Allowed` the calls it may make, `Effect`
what a completed call does to the view, and `lost` what remains of the view
when the reply to a call is lost.  A program follows a
discipline when every call it can reach is allowed there, whatever the others
do in between.
-/

namespace Concurrency

open Program

/-- Rules for one process of a shared world, stated on its own view. -/
structure Discipline (Call : Type) (Reply : Call → Type) (Failure : Type) where
  View : Type
  Rely : View → View → Prop
  rely_refl : ∀ view, Rely view view
  rely_trans : ∀ {first second third},
    Rely first second → Rely second third → Rely first third
  Allowed : View → Call → Prop
  /-- Calls after whose failure the process is still held to the discipline. -/
  Fallible : View → Call → Prop
  Effect : View → (request : Call) → Except Failure (Reply request) →
    View → Prop
  lost : View → View

namespace Discipline

variable {Call : Type} {Reply : Call → Type} {Failure Value Result : Type}
variable (discipline : Discipline Call Reply Failure)

/-- `program` keeps to the discipline from `view` on, and ends in a view and
outcome satisfying `post`.  A call whose reply is lost may have taken effect
or not. -/
def Follows (post : discipline.View → Except Failure Value → Prop) :
    Program Call Reply Failure Value → discipline.View → Prop
  | .pure value, view =>
      ∀ now, discipline.Rely view now → post now (.ok value)
  | .throw failure, view =>
      ∀ now, discipline.Rely view now → post now (.error failure)
  | .call request next rescue, view =>
      ∀ now, discipline.Rely view now →
        discipline.Allowed now request ∧
        (discipline.Fallible now request → ∀ failure,
          Follows post (rescue failure) (discipline.lost now)) ∧
        ∀ outcome after, discipline.Effect now request outcome after →
          (discipline.Fallible now request → ∀ failure,
            Follows post (rescue failure) (discipline.lost after)) ∧
          (∀ failure, outcome = .error failure →
            Follows post (rescue failure) after) ∧
          ∀ reply, outcome = .ok reply → Follows post (next reply) after

variable {discipline}
variable {post : discipline.View → Except Failure Value → Prop}
variable {view now : discipline.View}

theorem Follows.rely {program : Program Call Reply Failure Value}
    (follows : discipline.Follows post program view)
    (interference : discipline.Rely view now) :
    discipline.Follows post program now := by
  cases program <;>
    exact fun later rely =>
      follows later (discipline.rely_trans interference rely)

theorem Follows.mono {program : Program Call Reply Failure Value}
    {wider : discipline.View → Except Failure Value → Prop}
    (follows : discipline.Follows post program view)
    (widen : ∀ now outcome, post now outcome → wider now outcome) :
    discipline.Follows wider program view := by
  induction program generalizing view with
  | pure value => exact fun now rely => widen _ _ (follows now rely)
  | throw failure => exact fun now rely => widen _ _ (follows now rely)
  | call request next rescue nextIH rescueIH =>
      intro now rely
      obtain ⟨allowed, lost, completed⟩ := follows now rely
      refine ⟨allowed, fun fallible failure =>
        rescueIH failure (lost fallible failure), ?_⟩
      intro outcome after effect
      obtain ⟨late, failed, replied⟩ := completed outcome after effect
      exact ⟨fun fallible failure => rescueIH failure (late fallible failure),
        fun failure equal => rescueIH failure (failed failure equal),
        fun reply equal => nextIH reply (replied reply equal)⟩

/-- Sequencing: the first program may end in any view from which the rest
follows the discipline. -/
theorem Follows.bind {program : Program Call Reply Failure Value}
    {rest : Value → Program Call Reply Failure Result}
    {post : discipline.View → Except Failure Result → Prop}
    (follows : discipline.Follows
      (fun now outcome => match outcome with
        | .ok value => discipline.Follows post (rest value) now
        | .error failure => post now (.error failure)) program view) :
    discipline.Follows post (program.bind rest) view := by
  induction program generalizing view with
  | pure value => exact follows view (discipline.rely_refl view)
  | throw failure => exact follows
  | call request next rescue nextIH rescueIH =>
      intro now rely
      obtain ⟨allowed, lost, completed⟩ := follows now rely
      refine ⟨allowed, fun fallible failure =>
        rescueIH failure (lost fallible failure), ?_⟩
      intro outcome after effect
      obtain ⟨late, failed, replied⟩ := completed outcome after effect
      exact ⟨fun fallible failure => rescueIH failure (late fallible failure),
        fun failure equal => rescueIH failure (failed failure equal),
        fun reply equal => nextIH reply (replied reply equal)⟩

theorem Follows.tryCatch {program : Program Call Reply Failure Value}
    {handler : Failure → Program Call Reply Failure Value}
    (follows : discipline.Follows
      (fun now outcome => match outcome with
        | .ok value => post now (.ok value)
        | .error failure => discipline.Follows post (handler failure) now)
      program view) :
    discipline.Follows post (program.tryCatch handler) view := by
  induction program generalizing view with
  | pure value => exact follows
  | throw failure => exact follows view (discipline.rely_refl view)
  | call request next rescue nextIH rescueIH =>
      intro now rely
      obtain ⟨allowed, lost, completed⟩ := follows now rely
      refine ⟨allowed, fun fallible failure =>
        rescueIH failure (lost fallible failure), ?_⟩
      intro outcome after effect
      obtain ⟨late, failed, replied⟩ := completed outcome after effect
      exact ⟨fun fallible failure => rescueIH failure (late fallible failure),
        fun failure equal => rescueIH failure (failed failure equal),
        fun reply equal => nextIH reply (replied reply equal)⟩

theorem Follows.attempt {program : Program Call Reply Failure Value}
    {post : discipline.View → Except Failure (Except Failure Value) → Prop}
    (follows : discipline.Follows (fun now outcome => post now (.ok outcome))
      program view) :
    discipline.Follows post program.attempt view := by
  induction program generalizing view with
  | pure value => exact follows
  | throw failure => exact follows
  | call request next rescue nextIH rescueIH =>
      intro now rely
      obtain ⟨allowed, lost, completed⟩ := follows now rely
      refine ⟨allowed, fun fallible failure =>
        rescueIH failure (lost fallible failure), ?_⟩
      intro outcome after effect
      obtain ⟨late, failed, replied⟩ := completed outcome after effect
      exact ⟨fun fallible failure => rescueIH failure (late fallible failure),
        fun failure equal => rescueIH failure (failed failure equal),
        fun reply equal => nextIH reply (replied reply equal)⟩

/-- One call, and what follows each of its replies, where nothing is asked of a
failure. -/
theorem Follows.call_bind {request : Call}
    {rest : Reply request → Program Call Reply Failure Result}
    {post : discipline.View → Except Failure Result → Prop}
    (assertion : discipline.View → Prop)
    (stable : ∀ {view now}, assertion view → discipline.Rely view now →
      assertion now)
    (fails : ∀ now failure, post now (.error failure))
    (allowed : ∀ now, assertion now → discipline.Allowed now request)
    (replies : ∀ now reply after, assertion now →
      discipline.Effect now request (.ok reply) after →
        discipline.Follows post (rest reply) after)
    (holds : assertion view) :
    discipline.Follows post ((perform request).bind rest) view := by
  intro now rely
  have holdsNow := stable holds rely
  refine ⟨allowed now holdsNow, fun _ failure later _ => fails later failure, ?_⟩
  intro outcome after effect
  refine ⟨fun _ failure later _ => fails later failure,
    fun failure _ later _ => fails later failure, ?_⟩
  rintro reply rfl
  exact replies now reply after holdsNow effect

/-- A program whose calls all preserve an assertion on views, and are allowed
wherever it holds, follows the discipline from every view satisfying it. -/
theorem Follows.of_within {program : Program Call Reply Failure Value}
    {permitted : Call → Prop} (assertion : discipline.View → Prop)
    (within : program.Within permitted)
    (stable : ∀ {view now}, assertion view → discipline.Rely view now →
      assertion now)
    (allowed : ∀ {view request}, assertion view → permitted request →
      discipline.Allowed view request)
    (lost : ∀ {view}, assertion view → assertion (discipline.lost view))
    (effect : ∀ {view request outcome after}, assertion view →
      permitted request → discipline.Effect view request outcome after →
        assertion after)
    (ends : ∀ now outcome, assertion now → post now outcome)
    (holds : assertion view) :
    discipline.Follows post program view := by
  induction program generalizing view with
  | pure value => exact fun now rely => ends _ _ (stable holds rely)
  | throw failure => exact fun now rely => ends _ _ (stable holds rely)
  | call request next rescue nextIH rescueIH =>
      intro now rely
      have holdsNow := stable holds rely
      refine ⟨allowed holdsNow within.1,
        fun _ failure => rescueIH failure (within.2.2 failure)
          (lost holdsNow), ?_⟩
      intro outcome after completed
      have holdsAfter := effect holdsNow within.1 completed
      exact ⟨fun _ failure => rescueIH failure (within.2.2 failure)
          (lost holdsAfter),
        fun failure _ => rescueIH failure (within.2.2 failure) holdsAfter,
        fun reply _ => nextIH reply (within.2.1 reply) holdsAfter⟩

/-- The same rules about the world, with other calls allowed. -/
abbrev allowing (discipline : Discipline Call Reply Failure)
    (allowed : discipline.View → Call → Prop) :
    Discipline Call Reply Failure :=
  { discipline with Allowed := allowed }

/-- A program follows every discipline that allows the calls it makes. -/
theorem Follows.allowing {program : Program Call Reply Failure Value}
    {permitted : Call → Prop} {allowed : discipline.View → Call → Prop}
    (follows : discipline.Follows post program view)
    (within : program.Within permitted)
    (allows : ∀ {view request}, permitted request →
      discipline.Allowed view request → allowed view request) :
    (discipline.allowing allowed).Follows post program view := by
  induction program generalizing view with
  | pure value => exact follows
  | throw failure => exact follows
  | call request next rescue nextIH rescueIH =>
      intro now rely
      obtain ⟨permits, lost, completed⟩ := follows now rely
      refine ⟨allows within.1 permits, fun fallible failure =>
        rescueIH failure (lost fallible failure) (within.2.2 failure), ?_⟩
      intro outcome after effect
      obtain ⟨late, failed, replied⟩ := completed outcome after effect
      exact ⟨fun fallible failure =>
          rescueIH failure (late fallible failure) (within.2.2 failure),
        fun failure equal =>
          rescueIH failure (failed failure equal) (within.2.2 failure),
        fun reply equal =>
          nextIH reply (replied reply equal) (within.2.1 reply)⟩

end Discipline

end Concurrency
