import WebhookDelivery.TraceInvariant

/-!
# Idempotency slots

A slot is free, pending, or resolved to a job.  At most one request holds it at
a time: the one that has reserved it and not released it yet.
-/

namespace WebhookDelivery

open Concurrency

/-! ## How calls change a slot -/

/-- The slot a call may write. -/
def Call.slot? : Call → Option String
  | .setSlotNx key | .setSlot key _ | .delSlot key => some key
  | _ => none

/-- The value of a slot after a call that took effect. -/
def Call.writesSlot (slot : String) (value : Option SlotValue) :
    (call : Call) → Except AppError call.Reply → Option SlotValue
  | .setSlotNx key, .ok true => if key = slot then some .pending else value
  | .setSlot key jobId, _ => if key = slot then some (.job jobId) else value
  | .delSlot key, _ => if key = slot then none else value
  | _, _ => value

namespace Redis

variable (redis : Redis) (slot : String)

theorem getSlot_setSlot (key : String) (value : SlotValue) {ttlMs : Int}
    (positive : 0 < ttlMs) :
    (redis.setSlot key value ttlMs).getSlot slot =
      if key = slot then some value else redis.getSlot slot := by
  by_cases same : key = slot
  · subst same
    simp [getSlot, setSlot, Expiring.read, positive]
  · simp [getSlot, setSlot, Function.update_of_ne (Ne.symm same), same]

theorem getSlot_delSlot (key : String) :
    (redis.delSlot key).getSlot slot =
      if key = slot then none else redis.getSlot slot := by
  by_cases same : key = slot
  · subst same
    simp [getSlot, delSlot]
  · simp [getSlot, delSlot, Function.update_of_ne (Ne.symm same), same]

/-- `SET NX` succeeds on a free slot only. -/
theorem setSlotNx_cases (key : String) (ttlMs : Int) :
    redis.getSlot key = none ∧
        redis.setSlotNx key ttlMs = (true, redis.setSlot key .pending ttlMs) ∨
      redis.getSlot key ≠ none ∧ redis.setSlotNx key ttlMs = (false, redis) := by
  unfold setSlotNx
  split
  next free => exact .inl ⟨free, rfl⟩
  next value taken =>
    refine .inr ⟨?_, rfl⟩
    rw [taken]
    exact Option.some_ne_none _

theorem getSlot_brpoplpush :
    redis.brpoplpush.2.getSlot slot = redis.getSlot slot := by
  unfold brpoplpush
  split <;> rfl

theorem getSlot_popDlq :
    redis.popDlq.2.getSlot slot = redis.getSlot slot := by
  unfold popDlq
  split <;> rfl

theorem getSlot_checkCircuit (webhookId : WebhookId) (now cooldownMs : Int) :
    (redis.checkCircuit webhookId now cooldownMs).2.getSlot slot =
      redis.getSlot slot := by
  unfold checkCircuit
  split <;> rfl

theorem getSlot_take (webhookId : WebhookId) (rate burst now cost : Int) :
    (redis.take webhookId rate burst now cost).2.getSlot slot =
      redis.getSlot slot := by
  unfold take
  dsimp only
  split <;> rfl

private theorem getSlot_foldl {act : Redis → JobId → Redis}
    (keeps : ∀ redis jobId, (act redis jobId).getSlot slot =
      redis.getSlot slot) (jobIds : List JobId) :
    (jobIds.foldl act redis).getSlot slot = redis.getSlot slot := by
  induction jobIds generalizing redis with
  | nil => rfl
  | cons jobId jobIds ih => exact (ih _).trans (keeps redis jobId)

theorem getSlot_promoteScript (nowMs : Int) (batchSize : Nat) :
    (redis.promoteScript nowMs batchSize).2.getSlot slot =
      redis.getSlot slot :=
  @getSlot_foldl redis slot promoteOne (fun _ _ => rfl) _

theorem getSlot_reapScript (nowMs : Int) (batchSize : Nat) :
    (redis.reapScript nowMs batchSize).2.getSlot slot = redis.getSlot slot :=
  @getSlot_foldl redis slot reapOne (fun _ _ => rfl) _

end Redis

/-- The value a request would read in a slot. -/
def State.slot (state : State) (slot : String) : Option SlotValue :=
  state.store.redis.getSlot slot

theorem getSlot_exec (deployment : Deployment) (choice : Choice) (call : Call)
    (store : Store) (slot : String) :
    (exec deployment choice call store).2.redis.getSlot slot =
      call.writesSlot slot (store.redis.getSlot slot)
        (exec deployment choice call store).1 := by
  cases call with
  | setSlotNx key =>
      simp only [exec, Store.withRedis]
      rcases store.redis.setSlotNx_cases key (24 * 60 * 60 * 1000) with
        ⟨free, won⟩ | ⟨taken, refused⟩
      · rw [won]
        exact store.redis.getSlot_setSlot slot key .pending (by decide)
      · rw [refused]
        rfl
  | setSlot key jobId =>
      exact store.redis.getSlot_setSlot slot key (.job jobId) (by decide)
  | delSlot key => exact store.redis.getSlot_delSlot slot key
  | brpoplpush => exact store.redis.getSlot_brpoplpush slot
  | popDlq => exact store.redis.getSlot_popDlq slot
  | checkCircuit => exact store.redis.getSlot_checkCircuit slot _ _ _
  | take => exact store.redis.getSlot_take slot _ _ _ _ _
  | _ => rfl

/-- The lifetime of the slot ends. -/
def Expires (slot : String) (state : State) : Action → Prop
  | .tick ms =>
      ({ state.store.redis with
        clock := state.store.redis.clock + ms } : Redis).getSlot slot ≠
          state.slot slot
  | _ => False

instance (slot : String) (state : State) :
    DecidablePred (Expires slot state) :=
  fun action => by
    induction action using Action.casesOn <;> unfold Expires <;> infer_instance

/-! ## Who holds a slot -/

/-- The slot that a process uses. -/
def Role.slot? : Role → Option String
  | .enqueue input => slotName input
  | _ => none

/-- The slot of a request with a key that is not empty. -/
theorem slotName_of_key {input : EnqueueInput} {key : String}
    (keyed : input.idempotencyKey = some key) (nonempty : key ≠ "") :
    slotName input = some (Idempotency.redisKey input.tenant key) := by
  simp [slotName, JobService.requestKey, keyed, nonempty]

/-- A request carries the key of the slot. -/
def State.Uses (state : State) (slot : String) (pid : Pid) : Prop :=
  ∃ input, state.role? pid = some (.enqueue input) ∧
    slotName input = some slot

instance (state : State) (slot : String) (pid : Pid) :
    Decidable (state.Uses slot pid) :=
  decidable_of_iff ((state.role? pid).bind Role.slot? = some slot) (by
    rw [Option.bind_eq_some_iff]
    constructor
    · rintro ⟨role, known, named⟩
      cases role with
      | enqueue input => exact ⟨input, known, named⟩
      | worker => cases named
      | replay limit => cases named
    · rintro ⟨input, known, named⟩
      exact ⟨_, known, named⟩)

/-- A process that uses the slot after a step has been a request with that
slot if it has been there before. -/
theorem State.Uses.role_of_step {deployment : Deployment} {action : Action}
    {before after : State} {slot : String} {pid : Pid} {role : Role}
    (uses : after.Uses slot pid)
    (taken : step deployment before action = some after)
    (was : before.role? pid = some role) :
    ∃ input, role = .enqueue input ∧ slotName input = some slot := by
  obtain ⟨input, known, named⟩ := uses
  rw [WebhookDelivery.role_of_step taken was] at known
  exact ⟨input, Option.some.inj known, named⟩

/-- A request has reserved the slot and not released it. -/
def State.HoldsSlot (state : State) (slot : String) (pid : Pid) : Prop :=
  did (state.own pid) Event.won? slot ∧
    ¬did (state.own pid) Event.released? slot

/-- A call that neither reserves nor resolves nor releases the slot. -/
structure Event.SparesSlot (slot : String) (event : Event) : Prop where
  won : event.won? ≠ some slot
  resolved : ∀ jobId, event.resolved? ≠ some (slot, jobId)
  released : event.released? ≠ some slot

/-- A call on something else than the slot spares it. -/
theorem Event.sparesSlot_of_other {slot : String} {event : Event}
    (other : event.call.slot? ≠ some slot) : event.SparesSlot slot where
  won done := by
    unfold Event.won? at done
    split at done
    · cases done
      exact other rfl
    · cases done
  resolved jobId done := by
    unfold Event.resolved? at done
    split at done
    · cases done
      exact other rfl
    · cases done
  released done := by
    unfold Event.released? at done
    split at done
    · cases done
      exact other rfl
    · cases done

/-- What a step does to a slot. -/
inductive SlotStep (slot : String) (before : State) (action : Action)
    (after : State) : Prop
  | kept (same : after.slot slot = before.slot slot)
      (spares : ∀ pid, after.own pid = before.own pid ∨
        ∃ event, after.own pid = event :: before.own pid ∧
          event.SparesSlot slot)
  | reserved (pid : Pid) (performs : action.performer? = some pid)
      (pending : before.pending? pid = some (.setSlotNx slot))
      (free : before.slot slot = none)
      (now : after.slot slot = some .pending)
      (own : after.own pid = ⟨pid, .setSlotNx slot, .ok true⟩ ::
        before.own pid)
  | resolved (pid : Pid) (jobId : JobId)
      (performs : action.performer? = some pid)
      (pending : before.pending? pid = some (.setSlot slot jobId))
      (now : after.slot slot = some (.job jobId))
      (own : after.own pid = ⟨pid, .setSlot slot jobId, .ok ()⟩ ::
        before.own pid)
  | released (pid : Pid) (performs : action.performer? = some pid)
      (pending : before.pending? pid = some (.delSlot slot))
      (now : after.slot slot = none)
      (own : after.own pid = ⟨pid, .delSlot slot, .ok ()⟩ ::
        before.own pid)

variable {deployment : Deployment} {before after : State} {action : Action}
  {slot : String}

/-- The calls of all processes after a call of one of them. -/
theorem own_of_performed {pid : Pid} {event : Event}
    (taken : step deployment before action = some after)
    (performs : action.performer? = some event.pid)
    (same : after.history = event :: before.history) :
    (pid = event.pid → after.own pid = event :: before.own pid) ∧
      (pid ≠ event.pid → after.own pid = before.own pid) := by
  constructor
  · rintro rfl
    rw [own_cons same, if_pos rfl]
    rfl
  · exact own_of_others_call taken performs

private theorem slot_of_idle
    (taken : step deployment before action = some after)
    (idle : action.performer? = none) (lasts : ¬Expires slot before action) :
    after.slot slot = before.slot slot := by
  cases steps_of_step taken with
  | performed _ _ _ resumes =>
      rw [resumes.performer?.1] at idle
      cases idle
  | promoted => exact before.store.redis.getSlot_promoteScript slot _ _
  | reaped => exact before.store.redis.getSlot_reapScript slot _ _
  | ticked => exact not_not.mp lasts
  | start | failed | crashed | shutdown | registered | deleted => rfl

theorem slot_of_step (taken : step deployment before action = some after)
    (lasts : ¬Expires slot before action) :
    SlotStep slot before action after := by
  rcases history_of_step taken with ⟨_, idle⟩ | ⟨_, pid, failure, rfl⟩ |
    ⟨pid, choice, call, performs, pending, store, history⟩
  · refine .kept (slot_of_idle taken idle lasts) fun pid => .inl ?_
    exact own_of_other taken (by rw [idle]; exact fun acts => by cases acts)
  · refine .kept (slot_of_idle taken rfl lasts) fun other => .inl ?_
    exact own_of_other taken fun acts => by cases acts
  have value : after.slot slot = call.writesSlot slot (before.slot slot)
      (exec deployment choice call before.store).1 := by
    rw [State.slot, store]
    exact getSlot_exec deployment choice call before.store slot
  have own := fun other => @own_of_performed _ _ _ _ other _ taken performs
    history
  have spared : (Event.mk pid call
      (exec deployment choice call before.store).1).SparesSlot slot →
      after.slot slot = before.slot slot →
        SlotStep slot before action after := by
    intro spares same
    refine .kept same fun other => ?_
    by_cases acts : other = pid
    · exact .inr ⟨_, (own other).1 acts, spares⟩
    · exact .inl ((own other).2 acts)
  cases call with
  | setSlotNx key =>
      rcases before.store.redis.setSlotNx_cases key (24 * 60 * 60 * 1000) with
        ⟨free, won⟩ | ⟨taken, refused⟩
      · by_cases same : key = slot
        · subst same
          simp only [exec, won] at value own
          refine .reserved pid performs pending free ?_ ((own pid).1 rfl)
          simpa [Call.writesSlot] using value
        · simp only [exec, won] at value spared
          refine spared (Event.sparesSlot_of_other ?_) ?_
          · simpa [Call.slot?] using same
          · simp [value, Call.writesSlot, same]
      · simp only [exec, refused] at value spared
        refine spared ⟨?_, ?_, ?_⟩ value
        · intro done
          cases done
        · intro jobId done
          cases done
        · intro done
          cases done
  | setSlot key jobId =>
      by_cases same : key = slot
      · subst same
        refine .resolved pid jobId performs pending ?_ ((own pid).1 rfl)
        simpa [Call.writesSlot] using value
      · refine spared (Event.sparesSlot_of_other ?_) ?_
        · simpa [Call.slot?] using same
        · rw [value]
          simp [Call.writesSlot, same]
  | delSlot key =>
      by_cases same : key = slot
      · subst same
        refine .released pid performs pending ?_ ((own pid).1 rfl)
        simpa [Call.writesSlot] using value
      · refine spared (Event.sparesSlot_of_other ?_) ?_
        · simpa [Call.slot?] using same
        · rw [value]
          simp [Call.writesSlot, same]
  | _ => exact spared (Event.sparesSlot_of_other (by simp [Call.slot?])) value

/-- A slot that is resolved was so before, unless a request resolves it. -/
theorem resolved_of_step (taken : step deployment before action = some after)
    {jobId : JobId} (value : after.slot slot = some (.job jobId)) :
    before.slot slot = some (.job jobId) ∨
      ∃ pid, action.performer? = some pid ∧
        before.pending? pid = some (.setSlot slot jobId) := by
  by_cases expires : Expires slot before action
  · left
    cases action with
    | tick ms =>
        cases taken
        obtain ⟨entry, stored, read⟩ := Option.bind_eq_some_iff.mp value
        refine Option.bind_eq_some_iff.mpr ⟨entry, stored, ?_⟩
        have passes : before.store.redis.clock ≤
            before.store.redis.clock + ms := by omega
        exact entry.read_of_later passes read
    | _ => cases expires
  · cases slot_of_step taken expires with
    | kept same => exact .inl (same ▸ value)
    | reserved _ _ _ _ now =>
        rw [now] at value
        cases value
    | resolved pid id performs pending now =>
        rw [now] at value
        cases value
        exact .inr ⟨pid, performs, pending⟩
    | released _ _ _ now =>
        rw [now] at value
        cases value

/-- A step that spares a slot leaves alone what a process has done to it. -/
theorem did_of_spares {Value : Type} {what : Event → Option Value}
    {value : Value} {pid : Pid}
    (spares : after.own pid = before.own pid ∨
      ∃ event, after.own pid = event :: before.own pid ∧
        event.SparesSlot slot)
    (unrelated : ∀ event : Event, event.SparesSlot slot →
      what event ≠ some value) :
    did (after.own pid) what value ↔ did (before.own pid) what value := by
  rcases spares with same | ⟨event, same, spares⟩
  · rw [same]
  · rw [same, did_cons, or_iff_right (unrelated event spares)]

theorem holdsSlot_of_spares {pid : Pid}
    (spares : after.own pid = before.own pid ∨
      ∃ event, after.own pid = event :: before.own pid ∧
        event.SparesSlot slot) :
    after.HoldsSlot slot pid ↔ before.HoldsSlot slot pid := by
  unfold State.HoldsSlot
  rw [did_of_spares spares fun _ => Event.SparesSlot.won,
    did_of_spares spares fun _ => Event.SparesSlot.released]

theorem holdsSlot_of_others_call {pid actor : Pid}
    (taken : step deployment before action = some after)
    (performs : action.performer? = some actor) (distinct : pid ≠ actor) :
    after.HoldsSlot slot pid ↔ before.HoldsSlot slot pid := by
  rw [State.HoldsSlot, State.HoldsSlot,
    own_of_others_call taken performs distinct]

/-- Nobody holds a free slot, and at most one request holds a slot. -/
structure SlotInvariant (slot : String) (state : State) : Prop where
  free : state.slot slot = none → ∀ pid, ¬state.HoldsSlot slot pid
  sole : ∀ {pid other}, state.HoldsSlot slot pid →
    state.HoldsSlot slot other → pid = other

/-- A request releases the slot. -/
def Releases (slot : String) (state : State) (action : Action) (pid : Pid) :
    Prop :=
  action.performer? = some pid ∧ state.pending? pid = some (.delSlot slot)

/-- A request that does not release its slot goes on holding it. -/
theorem holdsSlot_of_step {pid : Pid}
    (taken : step deployment before action = some after)
    (held : before.HoldsSlot slot pid)
    (keeps : ¬Releases slot before action pid) :
    after.HoldsSlot slot pid := by
  refine ⟨did_mono taken held.1, fun released => ?_⟩
  rcases did_of_step taken released with
    earlier | ⟨choice, call, performs, pending, _, releases⟩
  · exact held.2 earlier
  · cases call with
    | delSlot key =>
        cases releases
        exact keeps ⟨performs, pending⟩
    | _ => cases releases

namespace SlotInvariant

theorem initial : SlotInvariant slot State.initial where
  free _ _ held := by simp [State.HoldsSlot, State.own, State.initial] at held
  sole held := by simp [State.HoldsSlot, State.own, State.initial] at held

/-- The protocol is kept as long as a slot lasts and only the request that
holds it releases it. -/
theorem step (invariant : SlotInvariant slot before)
    (taken : WebhookDelivery.step deployment before action = some after)
    (lasts : ¬Expires slot before action)
    (holder : ∀ pid, Releases slot before action pid →
      before.HoldsSlot slot pid) : SlotInvariant slot after := by
  cases slot_of_step taken lasts with
  | kept same spares =>
      constructor
      · intro free pid
        rw [holdsSlot_of_spares (spares pid)]
        exact invariant.free (same.symm.trans free) pid
      · intro pid other held heldToo
        rw [holdsSlot_of_spares (spares _)] at held heldToo
        exact invariant.sole held heldToo
  | reserved pid performs pending free now own =>
      -- Nobody held the slot before, so nobody but its new owner holds it.
      have unheld : ∀ other, after.HoldsSlot slot other → other = pid := by
        intro other held
        by_contra distinct
        rw [holdsSlot_of_others_call taken performs distinct] at held
        exact invariant.free free other held
      constructor
      · intro free
        rw [now] at free
        cases free
      · intro first second held heldToo
        exact (unheld _ held).trans (unheld _ heldToo).symm
  | resolved pid jobId performs pending now own =>
      have same : ∀ other, after.HoldsSlot slot other ↔
          before.HoldsSlot slot other := by
        intro other
        by_cases acts : other = pid
        · subst acts
          unfold State.HoldsSlot
          rw [own]
          simp [Event.won?, Event.released?]
        · exact holdsSlot_of_others_call taken performs acts
      constructor
      · intro free
        rw [now] at free
        cases free
      · intro first second held heldToo
        rw [same] at held heldToo
        exact invariant.sole held heldToo
  | released pid performs pending now own =>
      have unheld : ∀ other, ¬after.HoldsSlot slot other := by
        intro other held
        by_cases acts : other = pid
        · subst acts
          apply held.2
          rw [own]
          exact (did_cons ..).mpr (.inl rfl)
        · rw [holdsSlot_of_others_call taken performs acts] at held
          exact acts (invariant.sole held (holder pid ⟨performs, pending⟩))
      constructor
      · exact fun _ => unheld
      · exact fun held => absurd held (unheld _)

end SlotInvariant

end WebhookDelivery
