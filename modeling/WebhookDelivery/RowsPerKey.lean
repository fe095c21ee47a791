import WebhookDelivery.Slots
import WebhookDelivery.Fencing

/-!
# Rows inserted under one idempotency key

A request that fails after it has inserted its row releases its slot all the
same, and a retry inserts a second row.  As long as no request does, and none
that has not reserved the slot creates a job, one row at most is inserted for a
tenant and key.
-/

namespace WebhookDelivery

open Concurrency

/-- A request with this tenant and key. -/
def Role.carries (tenant key : String) : Role → Bool
  | .enqueue input =>
      input.tenant = tenant && input.idempotencyKey = some key
  | _ => false

/-- The rows that requests with this tenant and key have inserted. -/
def State.rowsInserted (state : State) (tenant key : String) : Nat :=
  state.history.countP fun event =>
    event.inserted?.isSome &&
      (state.role? event.pid).any (Role.carries tenant key)

/-- Only a request that has reserved the slot creates a job or releases the
slot, and once it has inserted a row it does not release the slot. -/
def Call.KeepsSlot (slot : String) (state : State) (pid : Pid) : Call → Prop
  | .insertJob _ =>
      state.Uses slot pid → did (state.own pid) Event.won? slot
  | .delSlot key =>
      key = slot → did (state.own pid) Event.won? slot ∧
        ∀ event ∈ state.own pid, event.inserted? = none
  | _ => True

instance (slot : String) (state : State) (pid : Pid) :
    DecidablePred (Call.KeepsSlot slot state pid) :=
  fun call => by
    induction call using Call.casesOn <;> unfold Call.KeepsSlot <;> infer_instance

/-- Steps whose call, if it takes effect, keeps the slot. -/
def KeepsSlot (slot : String) (state : State) (action : Action) : Prop :=
  ∀ pid ∈ action.performer?, ∀ call ∈ state.pending? pid,
    call.KeepsSlot slot state pid

instance (slot : String) (state : State) (action : Action) :
    Decidable (KeepsSlot slot state action) :=
  inferInstanceAs (Decidable (∀ pid ∈ action.performer?,
    ∀ call ∈ state.pending? pid, call.KeepsSlot slot state pid))

/-- Requests that have inserted a row hold the slot, and insert one row. -/
structure OneRowInvariant (slot : String) (state : State) : Prop where
  trace : TraceInvariant False state
  slots : SlotInvariant slot state
  holds : ∀ {pid job}, state.Uses slot pid →
    did (state.own pid) Event.inserted? job → state.HoldsSlot slot pid
  once : ∀ {pid input}, state.role? pid = some (.enqueue input) →
    (state.own pid).countP (fun event => event.inserted?.isSome) ≤ 1

variable {deployment : Deployment} {before after : State} {action : Action}
  {slot : String}

namespace OneRowInvariant

theorem initial : OneRowInvariant slot State.initial where
  trace := .initial
  slots := .initial
  holds _ done := (did_nil _ _ done).elim
  once _ := Nat.zero_le _

/-- A request that releases the slot holds it and has inserted no row. -/
private theorem releasing (invariant : OneRowInvariant slot before)
    (keeps : KeepsSlot slot before action) {pid : Pid}
    (releases : Releases slot before action pid) :
    before.HoldsSlot slot pid ∧
      ∀ job, ¬did (before.own pid) Event.inserted? job := by
  obtain ⟨performs, pending⟩ := releases
  obtain ⟨won, uninserted⟩ := keeps pid performs _ pending rfl
  obtain ⟨role, known, allows⟩ := invariant.trace.allows pending
  cases role with
  | enqueue input =>
      refine ⟨⟨won, allows.2.2.2 slot⟩, ?_⟩
      rintro job ⟨event, member, inserts⟩
      rw [uninserted event member] at inserts
      cases inserts
  | worker => cases allows
  | replay limit => cases allows

private theorem holds_of_step (invariant : OneRowInvariant slot before)
    (keeps : KeepsSlot slot before action)
    (taken : WebhookDelivery.step deployment before action = some after)
    {pid : Pid} {job : Job} (uses : after.Uses slot pid)
    (done : did (after.own pid) Event.inserted? job) :
    after.HoldsSlot slot pid := by
  rcases did_of_step taken done with
    earlier | ⟨choice, call, performs, pending, _, inserts⟩
  · obtain ⟨role, was⟩ := invariant.trace.role_of_did earlier
    obtain ⟨input, rfl, named⟩ := uses.role_of_step taken was
    have held := invariant.holds ⟨input, was, named⟩ earlier
    refine holdsSlot_of_step taken held fun releases => ?_
    exact (invariant.releasing keeps releases).2 job earlier
  · cases call with
    | insertJob new =>
        obtain ⟨role, was, allows⟩ := invariant.trace.allows pending
        obtain ⟨input, rfl, named⟩ := uses.role_of_step taken was
        have won := keeps pid performs _ pending ⟨input, was, named⟩
        refine holdsSlot_of_step taken ⟨won, allows.2.2.2.2.2 slot⟩ ?_
        rintro ⟨_, releases⟩
        rw [pending] at releases
        cases releases
    | _ => cases inserts

private theorem once_of_step (invariant : OneRowInvariant slot before)
    (taken : WebhookDelivery.step deployment before action = some after)
    {pid : Pid} {input : EnqueueInput}
    (known : after.role? pid = some (.enqueue input)) :
    (after.own pid).countP (fun event => event.inserted?.isSome) ≤ 1 := by
  by_cases performs : action.performer? = some pid
  · obtain ⟨choice, call, pending, _, own⟩ := own_of_performer taken performs
    obtain ⟨role, was, allows⟩ := invariant.trace.allows pending
    have request : role = .enqueue input := by
      rw [role_of_step taken was] at known
      exact Option.some.inj known
    subst request
    rw [own, List.countP_cons]
    cases call with
    | insertJob new =>
        have none : (before.own pid).countP
            (fun event => event.inserted?.isSome) = 0 := by
          rw [List.countP_eq_zero]
          intro event member inserted
          obtain ⟨job, inserts⟩ := Option.isSome_iff_exists.mp inserted
          exact allows.2.2.2.2.1 job ⟨event, member, inserts⟩
        rw [none]
        split <;> omega
    | _ => exact invariant.once was
  · rw [own_of_other taken performs]
    cases was : before.role? pid with
    | none =>
        rw [State.role?, Option.map_eq_none_iff] at was
        rw [invariant.trace.unused was]
        exact Nat.zero_le _
    | some role =>
        rw [role_of_step taken was] at known
        cases known
        exact invariant.once was

theorem step (invariant : OneRowInvariant slot before)
    (lasts : ¬Expires slot before action)
    (keeps : KeepsSlot slot before action)
    (taken : WebhookDelivery.step deployment before action = some after) :
    OneRowInvariant slot after where
  trace := invariant.trace.step False.elim taken
  slots := invariant.slots.step taken lasts fun _ releases =>
    (invariant.releasing keeps releases).1
  holds := invariant.holds_of_step keeps taken
  once := invariant.once_of_step taken

/-- All rows inserted under one key are due to the request that holds its
slot. -/
theorem rowsInserted_le_one {tenant key : String} {state : State}
    (nonempty : key ≠ "")
    (invariant : OneRowInvariant (Idempotency.redisKey tenant key) state) :
    state.rowsInserted tenant key ≤ 1 := by
  have carried : ∀ event ∈ state.history, event.inserted?.isSome →
      (state.role? event.pid).any (Role.carries tenant key) →
        ∃ input, state.role? event.pid = some (.enqueue input) ∧
          state.HoldsSlot (Idempotency.redisKey tenant key) event.pid := by
    intro event member inserted carries
    obtain ⟨role, known, carries⟩ := (Option.any_eq_true _ _).mp carries
    cases role with
    | enqueue input =>
        simp only [Role.carries, Bool.and_eq_true, decide_eq_true_eq]
          at carries
        obtain ⟨rfl, keyed⟩ := carries
        obtain ⟨job, inserts⟩ := Option.isSome_iff_exists.mp inserted
        refine ⟨input, known, invariant.holds
          ⟨input, known, slotName_of_key keyed nonempty⟩ ⟨event, ?_, inserts⟩⟩
        exact List.mem_filter.mpr ⟨member, decide_eq_true rfl⟩
    | worker => cases carries
    | replay limit => cases carries
  unfold State.rowsInserted
  by_cases none : state.history.countP (fun event =>
      event.inserted?.isSome &&
        (state.role? event.pid).any (Role.carries tenant key)) = 0
  · rw [none]
    exact Nat.zero_le _
  obtain ⟨first, member, counted⟩ :=
    List.countP_pos_iff.mp (Nat.pos_of_ne_zero none)
  rw [Bool.and_eq_true] at counted
  obtain ⟨input, known, held⟩ := carried first member counted.1 counted.2
  refine le_trans ?_ (invariant.once known)
  unfold State.own
  rw [List.countP_filter]
  refine List.countP_mono_left fun event isEvent counts => ?_
  rw [Bool.and_eq_true] at counts
  obtain ⟨_, _, heldToo⟩ := carried event isEvent counts.1 counts.2
  rw [Bool.and_eq_true]
  exact ⟨counts.1, decide_eq_true (invariant.slots.sole heldToo held)⟩

end OneRowInvariant

/-- In every run within the lifetime of its slot whose requests keep the slot,
at most one row is inserted under a tenant and key. -/
theorem one_row_of_kept_slot (deployment : Deployment) (tenant key : String)
    (nonempty : key ≠ "") (actions : List Action)
    (lasts : ∀ transition ∈
      transitions (step deployment) State.initial actions,
        ¬Expires (Idempotency.redisKey tenant key) transition.before
          transition.action)
    (keeps : ∀ transition ∈
      transitions (step deployment) State.initial actions,
        KeepsSlot (Idempotency.redisKey tenant key) transition.before
          transition.action) :
    ∀ transition ∈ transitions (step deployment) State.initial actions,
      transition.after.rowsInserted tenant key ≤ 1 := by
  intro transition member
  obtain ⟨_, after⟩ := @invariant_of_transitions _ _ (step deployment)
    (OneRowInvariant (Idempotency.redisKey tenant key))
    (fun state action =>
      ¬Expires (Idempotency.redisKey tenant key) state action ∧
        KeepsSlot (Idempotency.redisKey tenant key) state action)
    (fun _ _ _ invariant kept taken => invariant.step kept.1 kept.2 taken)
    _ .initial _
    (fun transition member => ⟨lasts transition member,
      keeps transition member⟩) transition member
  exact after.rowsInserted_le_one nonempty

/-! ## A request that fails after its insert -/

def keyedEvent : EnqueueInput :=
  { exampleEvent with idempotencyKey := some "order-7" }

/-- The insert of the first request fails, and the client sends it again. -/
def failedInsert : List Action :=
  [.registerWebhook exampleWebhook, .start 0 (.enqueue keyedEvent)] ++
    calls 0 2 ++ [.fail 0 (.other "connection lost"), .call 0 {},
      .start 1 (.enqueue keyedEvent)] ++
    calls 1 2 ++ [.call 1 { uuid := 3 }] ++ calls 1 3

theorem one_row_of_kept_slot_failedInsert :
    (run (step {}) State.initial failedInsert).isSome ∧
      ∀ transition ∈ transitions (step {}) State.initial failedInsert,
        transition.after.rowsInserted "acme" "order-7" ≤ 1 :=
  ⟨by decide +kernel, one_row_of_kept_slot {} "acme" "order-7" (by decide)
    failedInsert (by decide +kernel) (by decide +kernel)⟩

/-- The `LPUSH` of the first request fails after its insert, and the client
sends it again. -/
def failedPush : List Action :=
  [.registerWebhook exampleWebhook, .start 0 (.enqueue keyedEvent)] ++
    calls 0 2 ++ [.call 0 { uuid := 2 }, .call 0 {},
      .fail 0 (.other "connection lost"), .call 0 {},
      .start 1 (.enqueue keyedEvent)] ++
    calls 1 2 ++ [.call 1 { uuid := 3 }]

/-- The first request has released the slot, and the second inserts another
row. -/
theorem retry_inserts_second_row :
    ¬∀ tenant key, key ≠ "" → ∀ actions,
      (∀ transition ∈ transitions (step {}) State.initial actions,
        ¬Expires (Idempotency.redisKey tenant key) transition.before
          transition.action) →
      ∀ transition ∈ transitions (step {}) State.initial actions,
        transition.after.rowsInserted tenant key ≤ 1 := by
  intro once
  have within := once "acme" "order-7" (by decide) failedPush
    (by decide +kernel)
  have exceeded : ¬∀ transition ∈
      transitions (step {}) State.initial failedPush,
        transition.after.rowsInserted "acme" "order-7" ≤ 1 := by
    decide +kernel
  exact exceeded within

end WebhookDelivery
