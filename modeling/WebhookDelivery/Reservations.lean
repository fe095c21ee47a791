import WebhookDelivery.Slots

/-!
# Requests whose calls are answered

The handler of `enqueue` releases the slot after any error in the `try` block.
Only the insert raises errors of its own there, so a request none of whose
calls fails has inserted nothing when it releases its slot, and is over once
the slot is resolved.
-/

namespace WebhookDelivery

open Concurrency Program Discipline

/-- The process is a request that uses the slot. -/
def Trace.Uses (view : Trace) (slot : String) : Prop :=
  ∃ input, view.role = some (.enqueue input) ∧ slotName input = some slot

/-- The calls of requests that use the slot do not fail.  Such a request
releases a slot only before it has inserted its row, and makes no call after
it has resolved one. -/
abbrev reservationDiscipline (slot : String) :
    Discipline Call Call.Reply AppError :=
  { traceDiscipline False with
    Allowed := fun view call => view.Uses slot →
      (∀ event ∈ view.own, event.resolved? = none) ∧
        ∀ key, call = .delSlot key →
          ∀ event ∈ view.own, event.inserted? = none
    Fallible := fun view _ => ¬view.Uses slot
    Effect := fun view call outcome after =>
      after.role = view.role ∧
        (∃ pid, after.own = ⟨pid, call, outcome⟩ :: view.own) ∧
        ∃ deployment choice store,
          (exec deployment choice call store).1 = outcome
    lost := fun view => view }

namespace ReservationDiscipline

variable {slot : String} {view : Trace} {Value Next : Type}
  {program : Async Value} {input : EnqueueInput}

/-- A request that has not resolved its slot. -/
structure Unresolved (slot : String) (view : Trace) : Prop where
  uses : view.Uses slot
  unresolved : ∀ event ∈ view.own, event.resolved? = none

/-- A request that has not inserted its row either. -/
structure Blank (slot : String) (view : Trace) : Prop
    extends Unresolved slot view where
  uninserted : ∀ event ∈ view.own, event.inserted? = none

/-- Any end is fine. -/
abbrev Ends (_ : Trace) (_ : Except AppError Value) : Prop := True

/-- The calls that neither insert a row nor resolve a slot. -/
def tentative : Call → Bool
  | .insertJob _ | .setSlot _ _ => false
  | _ => true

theorem tentative_of_gates {call : Call} (gates : call.gates) :
    tentative call := by
  cases call <;> first | rfl | cases gates

section Effect

variable {call : Call} {outcome : Except AppError call.Reply} {after : Trace}

theorem Unresolved.effect (made : Unresolved slot view)
    (effect : (reservationDiscipline slot).Effect view call outcome after)
    (silent : ∀ pid, Event.resolved? ⟨pid, call, outcome⟩ = none) :
    Unresolved slot after := by
  obtain ⟨role, ⟨pid, own⟩, _⟩ := effect
  constructor
  · obtain ⟨input, known, named⟩ := made.uses
    exact ⟨input, role.trans known, named⟩
  · rw [own, List.forall_mem_cons]
    exact ⟨silent pid, made.unresolved⟩

theorem Blank.effect (blank : Blank slot view)
    (effect : (reservationDiscipline slot).Effect view call outcome after)
    (silent : ∀ pid, Event.resolved? ⟨pid, call, outcome⟩ = none)
    (inserts : ∀ pid, Event.inserted? ⟨pid, call, outcome⟩ = none) :
    Blank slot after where
  toUnresolved := blank.toUnresolved.effect effect silent
  uninserted := by
    obtain ⟨_, ⟨pid, own⟩, _⟩ := effect
    rw [own, List.forall_mem_cons]
    exact ⟨inserts pid, blank.uninserted⟩

theorem Blank.allowed (blank : Blank slot view) (call : Call) :
    (reservationDiscipline slot).Allowed view call :=
  fun _ => ⟨blank.unresolved, fun _ _ => blank.uninserted⟩

end Effect

/-- A process that does not use the slot is free to do anything. -/
theorem unrelated_follow (unrelated : ¬view.Uses slot)
    (program : Async Value) :
    (reservationDiscipline slot).Follows Ends program view := by
  refine Follows.of_within (fun view => ¬view.Uses slot) (Within.all program)
    ?_ ?_ (fun unrelated => unrelated) ?_ (fun _ _ _ => trivial) unrelated
  · rintro view _ unrelated rfl
    exact unrelated
  · intro view call unrelated _ uses
    exact absurd uses unrelated
  · rintro view call outcome after unrelated _ ⟨role, _⟩ ⟨input, known, named⟩
    exact unrelated ⟨input, role.symm.trans known, named⟩

/-- A program without an insert leaves a request as it is. -/
theorem tentative_follow (within : program.Within fun call => tentative call)
    (blank : Blank slot view) :
    (reservationDiscipline slot).Follows (fun now _ => Blank slot now) program
      view := by
  refine Follows.of_within (Blank slot) within ?_ (fun blank _ => blank.allowed _)
    (fun blank => blank) ?_ (fun _ _ blank => blank) blank
  · rintro view _ blank rfl
    exact blank
  · intro view call outcome after blank unrelated effect
    refine blank.effect effect (fun _ => ?_) (fun _ => ?_)
    · cases call <;> first | rfl | cases unrelated
    · cases call <;> first | rfl | cases unrelated

/-- Sequencing after such a program. -/
theorem tentative_then {rest : Value → Async Next}
    (within : program.Within fun call => tentative call)
    (blank : Blank slot view)
    (second : ∀ value now, Blank slot now →
      (reservationDiscipline slot).Follows Ends (rest value) now) :
    (reservationDiscipline slot).Follows Ends (program.bind rest) view := by
  refine Follows.bind ((tentative_follow within blank).mono ?_)
  rintro now (failure | value) blank
  · trivial
  · exact second value now blank

theorem ends_pure {value : Value} :
    (reservationDiscipline slot).Follows Ends (.pure value : Async Value)
      view :=
  fun _ _ => trivial

theorem ends_throw {failure : AppError} :
    (reservationDiscipline slot).Follows Ends (.throw failure : Async Value)
      view :=
  fun _ _ => trivial

/-- One call, which does not fail, but may raise an error. -/
theorem follows_await {post : Trace → Except AppError Next → Prop}
    {call : Call} {rest : call.Reply → Async Next} (uses : view.Uses slot)
    (allowed : (reservationDiscipline slot).Allowed view call)
    (raised : ∀ failure now, (reservationDiscipline slot).Effect view call
      (.error failure) now → post now (.error failure))
    (replied : ∀ reply now, (reservationDiscipline slot).Effect view call
      (.ok reply) now →
        (reservationDiscipline slot).Follows post (rest reply) now) :
    (reservationDiscipline slot).Follows post ((await call).bind rest)
      view := by
  rintro _ rfl
  refine ⟨allowed, fun unrelated => absurd uses unrelated, ?_⟩
  intro outcome after effect
  refine ⟨fun unrelated => absurd uses unrelated, ?_, ?_⟩
  · rintro failure rfl _ rfl
    exact raised failure _ effect
  · rintro reply rfl
    exact replied reply after effect

/-- A call of the `try` block after the insert: it raises no error. -/
theorem follows_steady {post : Trace → Except AppError Next → Prop}
    {call : Call} {rest : call.Reply → Async Next}
    (made : Unresolved slot view) (kept : ∀ key, call ≠ .delSlot key)
    (steady : ∀ deployment choice store,
      ∃ reply, (exec deployment choice call store).1 = .ok reply)
    (replied : ∀ reply now, (reservationDiscipline slot).Effect view call
      (.ok reply) now →
        (reservationDiscipline slot).Follows post (rest reply) now) :
    (reservationDiscipline slot).Follows post ((await call).bind rest)
      view := by
  refine follows_await made.uses ?_ ?_ replied
  · intro _
    exact ⟨made.unresolved, fun key same => absurd same (kept key)⟩
  · rintro failure now ⟨_, _, deployment, choice, store, raises⟩
    obtain ⟨reply, answers⟩ := steady deployment choice store
    rw [answers] at raises
    cases raises

/-- Such a call at the end of a program. -/
theorem steady_follow {call : Call} (made : Unresolved slot view)
    (kept : ∀ key, call ≠ .delSlot key)
    (steady : ∀ deployment choice store,
      ∃ reply, (exec deployment choice call store).1 = .ok reply) :
    (reservationDiscipline slot).Follows
      (fun now outcome => ∃ reply, outcome = .ok reply ∧
        (reservationDiscipline slot).Effect view call (.ok reply) now)
      (await call) view := by
  have whole : (await call).bind Program.pure = await call := rfl
  rw [← whole]
  apply follows_steady made kept steady
  rintro reply now effect _ rfl
  exact ⟨reply, rfl, effect⟩

theorem place_follows {job : Job} {now : Int} (made : Unresolved slot view) :
    (reservationDiscipline slot).Follows
      (fun now outcome => ∃ value, outcome = .ok value ∧ Unresolved slot now)
      (JobService.place job now) view := by
  unfold JobService.place
  split
  · refine (steady_follow made (fun key same => by cases same)
      fun _ _ _ => ⟨(), rfl⟩).mono ?_
    rintro now _ ⟨reply, rfl, effect⟩
    exact ⟨reply, rfl, made.effect effect fun _ => rfl⟩
  · refine (steady_follow made (fun key same => by cases same)
      fun _ _ _ => ⟨(), rfl⟩).mono ?_
    rintro now _ ⟨reply, rfl, effect⟩
    exact ⟨reply, rfl, made.effect effect fun _ => rfl⟩

/-- Resolving the slot is the last call of a request. -/
theorem resolveSlot_follows {jobId : JobId} (made : Unresolved slot view) :
    (reservationDiscipline slot).Follows
      (fun _ outcome => ∃ value, outcome = .ok value)
      (JobService.resolveSlot input jobId) view := by
  unfold JobService.resolveSlot
  split
  · refine (steady_follow made (fun key same => by cases same)
      fun _ _ _ => ⟨(), rfl⟩).mono ?_
    rintro now _ ⟨reply, rfl, _⟩
    exact ⟨reply, rfl⟩
  · rintro _ rfl
    exact ⟨(), rfl⟩

/-- Only the insert raises an error in the `try` block of `enqueue`. -/
theorem createJob_follows (blank : Blank slot view) :
    (reservationDiscipline slot).Follows
      (fun now outcome => ∀ failure, outcome = .error failure →
        Blank slot now) (JobService.createJob input) view := by
  refine follows_await blank.uses (blank.allowed _) ?_ ?_
  · intro failure now effect _ _
    exact blank.effect effect (fun _ => rfl) fun _ => rfl
  intro job now effect
  have made : Unresolved slot now := blank.toUnresolved.effect effect
    fun _ => rfl
  refine follows_steady made (fun key same => by cases same)
    (fun _ choice _ => ⟨choice.now, rfl⟩) ?_
  intro time now effect
  have made := made.effect effect fun _ => rfl
  refine Follows.bind ((place_follows made).mono ?_)
  rintro now _ ⟨_, rfl, made⟩
  refine Follows.bind ((resolveSlot_follows made).mono ?_)
  rintro now _ ⟨_, rfl⟩
  rintro _ rfl failure same
  cases same

theorem createOrAbort_follows (blank : Blank slot view) :
    (reservationDiscipline slot).Follows Ends
      (JobService.createOrAbort input) view := by
  refine Follows.tryCatch ((createJob_follows blank).mono ?_)
  rintro now (failure | job) failed
  · refine tentative_then ?_ (failed failure rfl) fun _ _ _ => ends_throw
    unfold JobService.releaseSlot
    split
    · exact Within.perform rfl
    · trivial
  · trivial

theorem begin_tentative (tenant key : String) :
    (Idempotency.begin tenant key).Within fun call => tentative call := by
  refine Within.bind (Within.perform rfl) fun reserved => ?_
  split
  · trivial
  refine Within.bind (Within.perform rfl) fun existing => ?_
  rcases existing with _ | _ | _ <;> trivial

theorem enqueue_follows (blank : Blank slot view) :
    (reservationDiscipline slot).Follows Ends (JobService.enqueue input)
      view := by
  refine tentative_then ((getOwnedBy_within _ _).mono
    fun _ => tentative_of_gates) blank ?_
  intro webhook now blank
  split
  · exact ends_throw
  split
  · exact createOrAbort_follows blank
  apply tentative_then (begin_tentative _ _) blank
  intro outcome now blank
  cases outcome with
  | new => exact createOrAbort_follows blank
  | duplicate jobId =>
      apply tentative_then (Within.perform rfl) blank
      rintro (_ | existing) now blank
      · exact createOrAbort_follows blank
      · exact ends_pure
  | pending => exact ends_throw

theorem main_follows (deployment : Deployment) (role : Role)
    (known : view.role = some role) (fresh : view.Uses slot → view.own = []) :
    (reservationDiscipline slot).Follows Ends (role.main deployment)
      view := by
  by_cases uses : view.Uses slot
  · obtain ⟨input, request, _⟩ := id uses
    rw [known] at request
    cases request
    have blank : Blank slot view := by
      have none := fresh uses
      refine ⟨⟨uses, ?_⟩, ?_⟩
      · simp [none]
      · simp [none]
    refine Follows.bind ((enqueue_follows blank).mono ?_)
    rintro now (failure | job) _
    · trivial
    · exact ends_pure
  · exact unrelated_follow uses _

end ReservationDiscipline

/-- A failing call is not that of a request that uses the slot. -/
def Unfailing (slot : String) (state : State) : Action → Prop
  | .fail pid _ | .failLate pid _ _ => ¬state.Uses slot pid
  | _ => True

instance (slot : String) (state : State) :
    DecidablePred (Unfailing slot state) :=
  fun action => by
    induction action using Action.casesOn <;> unfold Unfailing <;>
      infer_instance

variable {deployment : Deployment} {before after : State} {action : Action}
  {slot : String}

theorem reservationDiscipline_respects
    (unfailing : Unfailing slot before action)
    (taken : step deployment before action = some after) :
    Respects deployment (reservationDiscipline slot) State.trace before action
      after where
  performed {pid choice process call next rescue resumed} found running
      resumes same := by
    have known := State.role?_of_found found
    refine ⟨(role_of_step taken known).trans known.symm, ⟨pid, ?_⟩, _, _, _,
      rfl⟩
    subst same
    exact (own_cons rfl).trans (if_pos rfl)
  unanswered pending same := by
    subst same
    exact ⟨unfailing, rfl⟩
  failed {pid call failure} pending same := by
    have quiet : action.performer? ≠ some pid := by
      rw [same]
      simp [Action.performer?]
    obtain ⟨process, _, _, found, _⟩ := State.running_of_pending? pending
    have known := State.role?_of_found found
    refine ⟨by subst same; exact unfailing, ?_⟩
    simp only [State.trace, own_of_other taken quiet,
      role_of_step taken known, known]
  others {pid} other := by
    have quiet : action.performer? ≠ some pid := fun performs =>
      other (Action.actor?_of_performer? performs)
    simp only [State.trace, own_of_other taken quiet,
      role_of_other taken other]

end WebhookDelivery
