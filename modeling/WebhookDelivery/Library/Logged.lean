import WebhookDelivery.Library.Discipline

/-!
# Programs seen with their own calls

A process is seen with the calls it has completed, latest first, and each of
its calls may be made depending on these.  Nobody else adds to its log, every
call has an outcome that it can have, and only some calls can fail without the
outcome being known.  Where only some calls are guarded, a program without them
may be run at any point.
-/

namespace Concurrency

/-- A completed call and its outcome. -/
structure Logged (Call : Type) (Reply : Call → Type) (Failure : Type) where
  request : Call
  outcome : Except Failure (Reply request)

variable {Call : Type} {Reply : Call → Type} {Failure : Type}

/-- The rules for a process that makes a call only after a log that the call
is guarded by. -/
abbrev logging
    (answers : (request : Call) → Except Failure (Reply request) → Prop)
    (fallible : Call → Prop)
    (guarded : List (Logged Call Reply Failure) → Call → Prop) :
    Discipline Call Reply Failure where
  View := List (Logged Call Reply Failure)
  Rely before after := after = before
  rely_refl _ := rfl
  rely_trans := by
    rintro _ _ _ rfl rfl
    rfl
  Allowed := guarded
  Fallible _ := fallible
  Effect log request outcome after :=
    after = ⟨request, outcome⟩ :: log ∧ answers request outcome
  lost log := log

/-- Every call of a log was made after the calls that guard it. -/
def Kept (guarded : List (Logged Call Reply Failure) → Call → Prop)
    (log : List (Logged Call Reply Failure)) : Prop :=
  ∀ later entry earlier, log = later ++ entry :: earlier →
    guarded earlier entry.request

namespace Kept

variable {guarded : List (Logged Call Reply Failure) → Call → Prop}
  {log : List (Logged Call Reply Failure)} {entry : Logged Call Reply Failure}

theorem nil : Kept guarded [] := by
  intro later entry earlier split
  simp at split

theorem cons (kept : Kept guarded log) (allowed : guarded log entry.request) :
    Kept guarded (entry :: log) := by
  intro later other earlier split
  cases later with
  | nil =>
      cases split
      exact allowed
  | cons first later =>
      cases split
      exact kept later other earlier rfl

theorem tail (kept : Kept guarded (entry :: log)) : Kept guarded log :=
  fun later other earlier split =>
    kept (entry :: later) other earlier (split ▸ rfl)

theorem head (kept : Kept guarded (entry :: log)) :
    guarded log entry.request :=
  kept [] entry log rfl

theorem of_append {later : List (Logged Call Reply Failure)}
    (kept : Kept guarded (later ++ log)) : Kept guarded log := by
  intro between other earlier split
  exact kept (later ++ between) other earlier (by rw [split, List.append_assoc])

/-- The calls that guard a call of a log belong to the log. -/
theorem of_mem (kept : Kept guarded log) (member : entry ∈ log) :
    ∃ earlier, earlier ⊆ log ∧ guarded earlier entry.request := by
  obtain ⟨later, earlier, rfl⟩ := List.append_of_mem member
  refine ⟨earlier, fun other before => ?_, kept later entry earlier rfl⟩
  exact List.mem_append_right _ (List.mem_cons_of_mem _ before)

end Kept

namespace Logging

open Program Discipline

variable
  {answers : (request : Call) → Except Failure (Reply request) → Prop}
  {fallible : Call → Prop}
  {guarded : List (Logged Call Reply Failure) → Call → Prop}
  {log : List (Logged Call Reply Failure)} {Value Result : Type}
  {post : List (Logged Call Reply Failure) → Except Failure Value → Prop}

theorem follows_pure {value : Value} (ends : post log (.ok value)) :
    (logging answers fallible guarded).Follows post
      (.pure value : Program Call Reply Failure Value) log := by
  rintro _ rfl
  exact ends

theorem follows_throw {failure : Failure}
    (ends : post log (.error failure)) :
    (logging answers fallible guarded).Follows post
      (.throw failure : Program Call Reply Failure Value) log := by
  rintro _ rfl
  exact ends

/-- One call, and what follows its replies; its failure is not caught. -/
theorem follows_call {request : Call}
    {rest : Reply request → Program Call Reply Failure Value}
    (fails : ∀ now failure, post now (.error failure))
    (allowed : guarded log request)
    (replied : ∀ reply, answers request (.ok reply) →
      (logging answers fallible guarded).Follows post (rest reply)
        (⟨request, .ok reply⟩ :: log)) :
    (logging answers fallible guarded).Follows post
      ((perform request).bind rest) log := by
  have throws : ∀ now failure, (logging answers fallible guarded).Follows post
      (.throw failure : Program Call Reply Failure Value) now :=
    fun now failure => follows_throw (fails now failure)
  rintro _ rfl
  refine ⟨allowed, fun _ failure => throws _ failure, ?_⟩
  rintro outcome _ ⟨rfl, answered⟩
  refine ⟨fun _ failure => throws _ failure,
    fun failure _ => throws _ failure, ?_⟩
  rintro reply rfl
  exact replied reply answered

/-- Sequencing after a program that tells, with the value it returns, what the
log is. -/
theorem follows_bind {Next : Type} {told : Value → List (Logged Call Reply
      Failure) → Prop} {program : Program Call Reply Failure Value}
    {rest : Value → Program Call Reply Failure Next}
    {post : List (Logged Call Reply Failure) → Except Failure Next → Prop}
    (fails : ∀ now failure, post now (.error failure))
    (first : (logging answers fallible guarded).Follows (fun now outcome =>
      ∀ value, outcome = .ok value → told value now) program log)
    (second : ∀ value now, told value now →
      (logging answers fallible guarded).Follows post (rest value) now) :
    (logging answers fallible guarded).Follows post (program.bind rest)
      log := by
  refine Follows.bind (first.mono ?_)
  rintro now (failure | value) tells
  · exact fails now failure
  · exact second value now (tells value rfl)

/-- A single call, with what the log is after each of its ends: when the call is
fallible it may have failed, or have had an outcome that was not heard. -/
theorem follows_perform {request : Call}
    {post : List (Logged Call Reply Failure) →
      Except Failure (Reply request) → Prop}
    (allowed : guarded log request)
    (failed : fallible request → ∀ failure, post log (.error failure))
    (unheard : fallible request → ∀ outcome failure,
      post (⟨request, outcome⟩ :: log) (.error failure))
    (raised : ∀ failure,
      post (⟨request, .error failure⟩ :: log) (.error failure))
    (replied : ∀ reply, post (⟨request, .ok reply⟩ :: log) (.ok reply)) :
    (logging answers fallible guarded).Follows post (perform request) log := by
  rintro _ rfl
  refine ⟨allowed, fun may failure => follows_throw (failed may failure), ?_⟩
  rintro outcome _ ⟨rfl, _⟩
  refine ⟨fun may failure => follows_throw (unheard may outcome failure),
    ?_, ?_⟩
  · rintro failure rfl
    exact follows_throw (raised failure)
  · rintro reply rfl
    exact follows_pure (replied reply)

/-- The last call of a program. -/
theorem follows_last {request : Call}
    {post : List (Logged Call Reply Failure) →
      Except Failure (Reply request) → Prop}
    (fails : ∀ now failure, post now (.error failure))
    (allowed : guarded log request)
    (replied : ∀ reply, post (⟨request, .ok reply⟩ :: log) (.ok reply)) :
    (logging answers fallible guarded).Follows post (perform request) log :=
  follows_perform allowed (fun _ => fails _) (fun _ _ => fails _)
    (fun _ => fails _ _) replied

/-- A program without guarded calls may be run at any point, and adds calls of
its own to the log. -/
theorem follows_free {free : Call → Prop}
    {program : Program Call Reply Failure Value}
    (within : program.Within free)
    (unguarded : ∀ log request, free request → guarded log request)
    (ends : ∀ more outcome, (∀ entry ∈ more, free entry.request) →
      post (more ++ log) outcome) :
    (logging answers fallible guarded).Follows post program log := by
  refine Follows.of_within (fun now => ∃ more, now = more ++ log ∧
    ∀ entry ∈ more, free entry.request) within ?_ ?_ (fun grown => grown) ?_
    ?_ ⟨[], rfl, List.forall_mem_nil _⟩
  · rintro _ _ grown rfl
    exact grown
  · exact fun _ free => unguarded _ _ free
  · rintro before request outcome _ ⟨more, rfl, within⟩ free ⟨rfl, _⟩
    exact ⟨⟨request, outcome⟩ :: more, rfl,
      List.forall_mem_cons.mpr ⟨free, within⟩⟩
  · rintro _ outcome ⟨more, rfl, within⟩
    exact ends more outcome within

end Logging

end Concurrency
