import WebhookDelivery.RowsPerKey
import WebhookDelivery.RowSteps

/-!
# Requests with the same idempotency key agree

As long as failing calls have no effect, the slot lasts and no row is deleted,
a slot is resolved once, by the request that holds it, and every request that
returns a job returns the one the slot is resolved to.
-/

namespace WebhookDelivery

open Concurrency

/-- Steps within the lifetime of a slot that delete no row, and in which a
failing call has no effect. -/
def WithinLifetime (slot : String) (state : State) (action : Action) : Prop :=
  action.late = false ∧ action.deletes = false ∧ ¬Expires slot state action

instance (slot : String) (state : State) (action : Action) :
    Decidable (WithinLifetime slot state action) :=
  inferInstanceAs (Decidable (_ ∧ _ ∧ _))

/-- A request with this tenant and key has returned a job. -/
def State.Returned (state : State) (tenant key : String) (pid : Pid)
    (job : Job) : Prop :=
  ∃ process input, state.processes pid = some process ∧
    process.role = .enqueue input ∧ input.tenant = tenant ∧
      input.idempotencyKey = some key ∧
        process.status = .returned (.ok (.enqueued job))

/-- All requests with this tenant and key that have returned after the step
have returned one job, which was placed before the step. -/
def Agreed (tenant key : String) (before after : State) : Prop :=
  ∀ pid job, after.Returned tenant key pid job →
    did before.history Event.placed? job.id ∧
      ∀ other answer, after.Returned tenant key other answer →
        answer.id = job.id

/-- A resolved slot names a job that has been placed and has a row, and all
requests that have read or resolved the slot agree on it. -/
structure AgreementInvariant (slot : String) (state : State) : Prop where
  trace : TraceInvariant True state
  slots : SlotInvariant slot state
  stored : ∀ {job}, did state.history Event.inserted? job →
    (state.store.db.jobs job.id).isSome
  found : ∀ {pid jobId}, state.Uses slot pid →
    ¬did (state.own pid) Event.missed? jobId
  resolved : ∀ {pid jobId},
    did (state.own pid) Event.resolved? (slot, jobId) →
      state.HoldsSlot slot pid ∧ state.slot slot = some (.job jobId) ∧
        did state.history Event.placed? jobId ∧
          (state.store.db.jobs jobId).isSome
  read : ∀ {jobId}, state.slot slot = some (.job jobId) ∨
    did state.history Event.slotRead? (slot, jobId) →
      did state.history Event.resolved? (slot, jobId)

variable {deployment : Deployment} {before after : State} {action : Action}
  {slot : String}

namespace AgreementInvariant

theorem initial : AgreementInvariant slot State.initial where
  trace := .initial
  slots := .initial
  stored done := (did_nil _ _ done).elim
  found _ done := did_nil _ _ done
  resolved done := (did_nil _ _ done).elim
  read read := by
    rcases read with value | done
    · cases value
    · exact (did_nil _ _ done).elim

/-- What the order of calls says of a request that resolves its slot. -/
private theorem resolving {state : State}
    (invariant : AgreementInvariant slot state) {pid : Pid} {jobId : JobId}
    (pending : state.pending? pid = some (.setSlot slot jobId)) :
    state.HoldsSlot slot pid ∧ did (state.own pid) Event.placed? jobId ∧
      (state.store.db.jobs jobId).isSome ∧
        ∀ resolved, ¬did (state.own pid) Event.resolved? resolved := by
  obtain ⟨role, known, allows⟩ := invariant.trace.allows pending
  cases role with
  | enqueue input =>
      obtain ⟨unresolved, named, entitled, ⟨job, inserted, rfl⟩, placed,
        unreleased⟩ := allows
      have won := entitled.won named fun _ =>
        invariant.found ⟨input, known, named⟩
      refine ⟨⟨won, unreleased slot⟩, placed, ?_, unresolved trivial⟩
      exact invariant.stored (did_history_iff.mpr ⟨pid, inserted⟩)
  | worker => cases allows
  | replay limit => cases allows

/-- A request releases a slot that it holds and has not resolved. -/
private theorem releasing {state : State}
    (invariant : AgreementInvariant slot state) {pid : Pid}
    (pending : state.pending? pid = some (.delSlot slot)) :
    state.HoldsSlot slot pid ∧
      ∀ resolved, ¬did (state.own pid) Event.resolved? resolved := by
  obtain ⟨role, known, allows⟩ := invariant.trace.allows pending
  cases role with
  | enqueue input =>
      obtain ⟨unresolved, named, entitled, unreleased⟩ := allows
      have won := entitled.won named fun _ =>
        invariant.found ⟨input, known, named⟩
      exact ⟨⟨won, unreleased slot⟩, unresolved trivial⟩
  | worker => cases allows
  | replay limit => cases allows

/-- Nobody has resolved a slot that is held by a request which has not. -/
private theorem unresolved_of_holder {state : State}
    (invariant : AgreementInvariant slot state) {pid : Pid}
    (held : state.HoldsSlot slot pid)
    (unresolved : ∀ resolved, ¬did (state.own pid) Event.resolved? resolved)
    (jobId : JobId) : ¬did state.history Event.resolved? (slot, jobId) := by
  rw [did_history_iff]
  rintro ⟨other, resolved⟩
  have same := invariant.slots.sole (invariant.resolved resolved).1 held
  rw [same] at resolved
  exact unresolved _ resolved

private theorem stored_of_step (invariant : AgreementInvariant slot before)
    (taken : WebhookDelivery.step deployment before action = some after)
    (kept : action.deletes = false) {job : Job}
    (done : did after.history Event.inserted? job) :
    (after.store.db.jobs job.id).isSome := by
  obtain ⟨pid, done⟩ := did_history_iff.mp done
  rcases did_of_step taken done with
    earlier | ⟨choice, call, _, _, store, inserts⟩
  · exact row_stays taken kept
      (invariant.stored (did_history_iff.mpr ⟨pid, earlier⟩))
  · obtain ⟨_, _, _, _, _, _, stored, _⟩ := Event.inserted?_exec inserts
    rw [store, stored]
    rfl

/-- A request finds the job that its slot is resolved to. -/
private theorem found_of_step (invariant : AgreementInvariant slot before)
    (taken : WebhookDelivery.step deployment before action = some after)
    {pid : Pid} {jobId : JobId} (uses : after.Uses slot pid) :
    ¬did (after.own pid) Event.missed? jobId := by
  intro done
  rcases did_of_step taken done with
    earlier | ⟨choice, call, _, pending, _, misses⟩
  · obtain ⟨role, was⟩ := invariant.trace.role_of_did earlier
    obtain ⟨input, rfl, named⟩ := uses.role_of_step taken was
    exact invariant.found ⟨input, was, named⟩ earlier
  · obtain ⟨rfl, absent⟩ := Event.missed?_exec misses
    obtain ⟨role, was, allows⟩ := invariant.trace.allows pending
    obtain ⟨input, rfl, named⟩ := uses.role_of_step taken was
    obtain ⟨_, key, isSlot, read⟩ := allows
    rw [named] at isSlot
    cases isSlot
    have resolved := invariant.read
      (.inr (did_history_iff.mpr ⟨pid, read⟩))
    obtain ⟨other, resolved⟩ := did_history_iff.mp resolved
    have stored := (invariant.resolved resolved).2.2.2
    rw [absent] at stored
    cases stored

private theorem resolved_of_step (invariant : AgreementInvariant slot before)
    (taken : WebhookDelivery.step deployment before action = some after)
    (within : WithinLifetime slot before action) {pid : Pid} {jobId : JobId}
    (resolved : did (after.own pid) Event.resolved? (slot, jobId)) :
    after.HoldsSlot slot pid ∧ after.slot slot = some (.job jobId) ∧
      did after.history Event.placed? jobId ∧
        (after.store.db.jobs jobId).isSome := by
  cases slot_of_step taken within.2.2 with
  | kept same spares =>
      rw [did_of_spares (spares pid) fun _ spares => spares.resolved jobId]
        at resolved
      obtain ⟨held, value, placed, stored⟩ := invariant.resolved resolved
      exact ⟨(holdsSlot_of_spares (spares pid)).mpr held, same.trans value,
        did_history_mono taken placed, row_stays taken within.2.1 stored⟩
  | reserved actor performs pending free now own =>
      have earlier : did (before.own pid) Event.resolved? (slot, jobId) := by
        by_cases acts : pid = actor
        · subst acts
          rw [own] at resolved
          simpa [Event.resolved?] using resolved
        · rwa [own_of_others_call taken performs acts] at resolved
      exact absurd (invariant.resolved earlier).1
        (invariant.slots.free free pid)
  | resolved actor value performs pending now own =>
      obtain ⟨held, placed, stored, unresolved⟩ := invariant.resolving pending
      by_cases acts : pid = actor
      · subst acts
        have same : value = jobId := by
          rw [own, did_cons] at resolved
          rcases resolved with new | earlier
          · cases new
            rfl
          · exact absurd earlier (unresolved _)
        subst same
        refine ⟨?_, now, did_history_mono taken
          (did_history_iff.mpr ⟨pid, placed⟩), row_stays taken within.2.1
          stored⟩
        unfold State.HoldsSlot
        rw [own]
        simpa [State.HoldsSlot, Event.won?, Event.released?] using held
      · rw [own_of_others_call taken performs acts] at resolved
        exact absurd (did_history_iff.mpr ⟨pid, resolved⟩)
          (invariant.unresolved_of_holder held unresolved jobId)
  | released actor performs pending now own =>
      obtain ⟨held, unresolved⟩ := invariant.releasing pending
      have earlier : did (before.own pid) Event.resolved? (slot, jobId) := by
        by_cases acts : pid = actor
        · subst acts
          rw [own] at resolved
          simpa [Event.resolved?] using resolved
        · rwa [own_of_others_call taken performs acts] at resolved
      exact absurd (did_history_iff.mpr ⟨pid, earlier⟩)
        (invariant.unresolved_of_holder held unresolved jobId)

private theorem read_of_step (invariant : AgreementInvariant slot before)
    (taken : WebhookDelivery.step deployment before action = some after)
    (lasts : ¬Expires slot before action) {jobId : JobId}
    (read : after.slot slot = some (.job jobId) ∨
      did after.history Event.slotRead? (slot, jobId)) :
    did after.history Event.resolved? (slot, jobId) := by
  rcases read with value | done
  · cases slot_of_step taken lasts with
    | kept same =>
        rw [same] at value
        exact did_history_mono taken (invariant.read (.inl value))
    | reserved _ _ _ _ now =>
        rw [now] at value
        cases value
    | resolved pid _ _ _ now own =>
        rw [now] at value
        cases value
        refine did_history_iff.mpr ⟨pid, ?_⟩
        rw [own]
        exact (did_cons ..).mpr (.inl rfl)
    | released _ _ _ now =>
        rw [now] at value
        cases value
  · obtain ⟨pid, done⟩ := did_history_iff.mp done
    rcases did_of_step taken done with
      earlier | ⟨choice, call, _, _, _, reads⟩
    · exact did_history_mono taken
        (invariant.read (.inr (did_history_iff.mpr ⟨pid, earlier⟩)))
    · exact did_history_mono taken
        (invariant.read (.inl (Event.slotRead?_exec reads)))

theorem step (invariant : AgreementInvariant slot before)
    (within : WithinLifetime slot before action)
    (taken : WebhookDelivery.step deployment before action = some after) :
    AgreementInvariant slot after where
  trace := invariant.trace.step (fun _ => within.1) taken
  slots := invariant.slots.step taken within.2.2 fun _ releases =>
    (invariant.releasing releases.2).1
  stored := invariant.stored_of_step taken within.2.1
  found := invariant.found_of_step taken
  resolved := invariant.resolved_of_step taken within
  read := invariant.read_of_step taken within.2.2

/-- All requests that have resolved or read the slot know the same job. -/
theorem resolved_unique {state : State}
    (invariant : AgreementInvariant slot state) {first second : JobId}
    (resolvedFirst : did state.history Event.resolved? (slot, first))
    (resolvedSecond : did state.history Event.resolved? (slot, second)) :
    first = second := by
  obtain ⟨pid, resolvedFirst⟩ := did_history_iff.mp resolvedFirst
  obtain ⟨other, resolvedSecond⟩ := did_history_iff.mp resolvedSecond
  have valueFirst := (invariant.resolved resolvedFirst).2.1
  have valueSecond := (invariant.resolved resolvedSecond).2.1
  rw [valueFirst] at valueSecond
  cases valueSecond
  rfl

/-- A slot is resolved to a job that had been placed before. -/
theorem placed_of_resolved (invariant : AgreementInvariant slot before)
    (taken : WebhookDelivery.step deployment before action = some after)
    {jobId : JobId}
    (resolved : did after.history Event.resolved? (slot, jobId)) :
    did before.history Event.placed? jobId := by
  obtain ⟨pid, resolved⟩ := did_history_iff.mp resolved
  rcases did_of_step taken resolved with
    earlier | ⟨choice, call, _, pending, _, resolves⟩
  · exact (invariant.resolved earlier).2.2.1
  · cases call with
    | setSlot key id =>
        cases resolves
        exact did_history_iff.mpr ⟨pid, (invariant.resolving pending).2.1⟩
    | _ => cases resolves

end AgreementInvariant

/-- A request that has returned a job has seen its slot resolved to it. -/
private theorem resolved_of_returned {tenant key : String} {state : State}
    {pid : Pid} {job : Job} (nonempty : key ≠ "")
    (invariant :
      AgreementInvariant (Idempotency.redisKey tenant key) state)
    (returned : state.Returned tenant key pid job) :
    did state.history Event.resolved?
      (Idempotency.redisKey tenant key, job.id) := by
  obtain ⟨process, input, found, role, rfl, keyed, returned⟩ := returned
  have named := slotName_of_key keyed nonempty
  obtain ⟨input', role', answered⟩ := invariant.trace.returned found returned
  rw [role] at role'
  cases role'
  rcases answered with ⟨_, _, resolved⟩ | ⟨slot, isSlot, read, _⟩
  · exact did_history_iff.mpr ⟨pid, resolved _ named⟩
  · rw [named] at isSlot
    cases isSlot
    exact invariant.read (.inr (did_history_iff.mpr ⟨pid, read⟩))

/-- In every run within the lifetime of its slot, requests with the same
tenant and key that return a job return the same one, and it has been placed
before the first of them returns. -/
theorem keyed_requests_agree (deployment : Deployment) (tenant key : String)
    (nonempty : key ≠ "") (actions : List Action)
    (within : ∀ transition ∈
      transitions (step deployment) State.initial actions,
        WithinLifetime (Idempotency.redisKey tenant key) transition.before
          transition.action) :
    ∀ transition ∈ transitions (step deployment) State.initial actions,
      Agreed tenant key transition.before transition.after := by
  intro transition member
  have taken := step_of_mem_transitions member
  obtain ⟨before, after⟩ := invariant_of_transitions
    (AgreementInvariant (Idempotency.redisKey tenant key))
    (fun _ _ _ invariant within taken => invariant.step within taken)
    .initial within transition member
  intro pid job returned
  have resolved := resolved_of_returned nonempty after returned
  refine ⟨before.placed_of_resolved taken resolved, ?_⟩
  intro other answer returnedToo
  exact after.resolved_unique
    (resolved_of_returned nonempty after returnedToo) resolved

/-- The first request fails to place its job and releases the slot, the second
is answered with a job of its own, the third with that of the second. -/
def retriedUnderKey : List Action :=
  failedPush ++ calls 1 3 ++ .start 2 (.enqueue keyedEvent) :: calls 2 4

theorem keyed_requests_agree_retriedUnderKey :
    (run (step {}) State.initial retriedUnderKey).isSome ∧
      ∀ transition ∈ transitions (step {}) State.initial retriedUnderKey,
        Agreed "acme" "order-7" transition.before transition.after :=
  ⟨by decide +kernel, keyed_requests_agree {} "acme" "order-7" (by decide)
    retriedUnderKey (by decide +kernel)⟩

end WebhookDelivery
