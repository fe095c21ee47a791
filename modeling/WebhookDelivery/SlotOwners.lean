import WebhookDelivery.Reservations
import WebhookDelivery.RowsPerKey
import WebhookDelivery.RowSteps

/-!
# Creating a job under one's own reservation

A request that finds its slot resolved to a job whose row is gone creates a
job without having reserved the slot, and so does every other that finds this
at the same time.  As long as no request does, every job is created under a
reservation of the request's own, and one job at most until the slot expires.
-/

namespace WebhookDelivery

open Concurrency

/-! ## Reservations -/

/-- The call has written the slot. -/
def Event.wrote (slot : String) (event : Event) : Bool :=
  event.won? = some slot || event.released? = some slot ||
    event.resolved?.any fun entry => entry.1 = slot

/-- The slot holds the reservation of this request: it is pending, and it was
last written when the request reserved it. -/
def State.Reserved (state : State) (slot : String) (pid : Pid) : Prop :=
  state.slot slot = some .pending ∧
    ∃ event ∈ state.history.find? (Event.wrote slot),
      event.pid = pid ∧ event.won? = some slot

instance (state : State) (slot : String) (pid : Pid) :
    Decidable (state.Reserved slot pid) :=
  inferInstanceAs (Decidable (_ ∧ ∃ event ∈ state.history.find?
    (Event.wrote slot), event.pid = pid ∧ event.won? = some slot))

/-- A row is inserted, and the slot released, under a reservation of the
request's own. -/
def Call.ByOwner (slot : String) (state : State) (pid : Pid) : Call → Prop
  | .insertJob _ => state.Uses slot pid → state.Reserved slot pid
  | .delSlot key => key = slot → state.Reserved slot pid
  | _ => True

instance (slot : String) (state : State) (pid : Pid) :
    DecidablePred (Call.ByOwner slot state pid) :=
  fun call => by
    induction call using Call.casesOn <;> unfold Call.ByOwner <;>
      infer_instance

/-- Steps in which only the owner of the slot creates a job or releases the
slot. -/
def ByOwner (slot : String) (state : State) (action : Action) : Prop :=
  ∀ pid ∈ action.performer?, ∀ call ∈ state.pending? pid,
    call.ByOwner slot state pid

instance (slot : String) (state : State) (action : Action) :
    Decidable (ByOwner slot state action) :=
  inferInstanceAs (Decidable (∀ pid ∈ action.performer?,
    ∀ call ∈ state.pending? pid, call.ByOwner slot state pid))

/-! ## The fall-through and the lifetime of a slot -/

/-- The job that is looked up has its row. -/
def Call.FindsRow (db : Postgres) : Call → Prop
  | .findJob jobId => (db.jobs jobId).isSome
  | _ => True

instance (db : Postgres) : DecidablePred (Call.FindsRow db) :=
  fun call => by
    induction call using Call.casesOn <;> unfold Call.FindsRow <;>
      infer_instance

/-- A request that looks up the job of the slot finds its row. -/
def FindsRow (slot : String) (state : State) (action : Action) : Prop :=
  ∀ pid ∈ action.performer?, state.Uses slot pid →
    ∀ call ∈ state.pending? pid, call.FindsRow state.store.db

instance (slot : String) (state : State) (action : Action) :
    Decidable (FindsRow slot state action) :=
  inferInstanceAs (Decidable (∀ pid ∈ action.performer?,
    state.Uses slot pid → ∀ call ∈ state.pending? pid,
      call.FindsRow state.store.db))

/-- A request at work that has reserved the slot and neither resolved nor
released it. -/
structure State.Creating (state : State) (slot : String) (pid : Pid) :
    Prop where
  running : (state.pending? pid).isSome
  holds : state.HoldsSlot slot pid
  unresolved : ∀ event ∈ state.own pid, event.resolved? = none

instance (state : State) (slot : String) (pid : Pid) :
    Decidable (state.Creating slot pid) :=
  decidable_of_iff ((state.pending? pid).isSome ∧
      (did (state.own pid) Event.won? slot ∧
        ¬did (state.own pid) Event.released? slot) ∧
      ∀ event ∈ state.own pid, event.resolved? = none)
    ⟨fun ⟨running, holds, unresolved⟩ => ⟨running, holds, unresolved⟩,
      fun creating => ⟨creating.running, creating.holds,
        creating.unresolved⟩⟩

/-- The slot does not expire while a request creates its job under it. -/
def Outlives (slot : String) (state : State) (action : Action) : Prop :=
  Expires slot state action →
    ∀ event ∈ state.history, ¬state.Creating slot event.pid

instance (slot : String) (state : State) (action : Action) :
    Decidable (Outlives slot state action) :=
  inferInstanceAs (Decidable (Expires slot state action →
    ∀ event ∈ state.history, ¬state.Creating slot event.pid))

/-- Steps in which no request falls through to the creation of a job, or
creates one under a slot that has expired. -/
def KeepsReservations (slot : String) (state : State) (action : Action) :
    Prop :=
  FindsRow slot state action ∧ Outlives slot state action

instance (slot : String) (state : State) (action : Action) :
    Decidable (KeepsReservations slot state action) :=
  inferInstanceAs (Decidable (_ ∧ _))

variable {deployment : Deployment} {before after : State} {action : Action}
  {slot : String}

/-! ## What a step does to reservations -/

theorem Event.SparesSlot.wrote {event : Event}
    (spares : event.SparesSlot slot) : event.wrote slot = false := by
  unfold Event.wrote
  cases resolves : event.resolved? with
  | none => simp [spares.won, spares.released]
  | some entry =>
      have other : entry.1 ≠ slot := by
        rintro rfl
        exact spares.resolved entry.2 resolves
      simp [spares.won, spares.released, other]

/-- A process that is at work was so before, or is new. -/
theorem running_of_step {pid : Pid}
    (taken : step deployment before action = some after)
    (running : (after.pending? pid).isSome) :
    (before.pending? pid).isSome ∨ ∃ role, action = .start pid role := by
  by_cases acts : action.actor? = some pid
  · cases steps_of_step taken with
    | @start actor role unused =>
        cases acts
        exact .inr ⟨role, rfl⟩
    | @performed _ actor _ _ _ _ _ _ found runs _ resumes =>
        rw [resumes.performer?.2] at acts
        cases acts
        rw [State.pending?_of_running found runs]
        exact .inl rfl
    | failed found runs =>
        cases acts
        rw [State.pending?_of_running found runs]
        exact .inl rfl
    | crashed found live =>
        cases acts
        rw [State.pending?, State.setProcess_self] at running
        cases running
    | shutdown | promoted | reaped | ticked | registered | deleted =>
        cases acts
  · left
    obtain ⟨call, pending⟩ := Option.isSome_iff_exists.mp running
    obtain ⟨now, next, rescue, found, runs⟩ :=
      State.running_of_pending? pending
    obtain ⟨process, foundBefore, same⟩ := status_of_other taken acts found
    rw [State.pending?_of_running foundBefore (same.trans runs)]
    rfl

/-- A call that is new among those of its process is new in the history. -/
theorem history_of_own {pid : Pid} {event : Event}
    (taken : step deployment before action = some after)
    (own : after.own pid = event :: before.own pid) :
    after.history = event :: before.history := by
  have idle : after.own pid ≠ before.own pid := by
    rw [own]
    exact List.cons_ne_self _ _
  rcases history_of_step taken with ⟨same, _⟩ | ⟨same, _⟩ |
    ⟨actor, choice, call, performs, _, _, same⟩
  · exact absurd (by rw [State.own, State.own, same]) idle
  · exact absurd (by rw [State.own, State.own, same]) idle
  by_cases acts : actor = pid
  · subst acts
    have now := (own_of_performed taken performs same).1 rfl
    rw [own] at now
    rw [same, (List.cons.inj now).1]
  · exact absurd (own_of_others_call taken performs (Ne.symm acts)) idle

/-- A step that spares the slot does not write it. -/
theorem find?_wrote_of_spares
    (taken : step deployment before action = some after)
    (spares : ∀ pid, after.own pid = before.own pid ∨
      ∃ event, after.own pid = event :: before.own pid ∧
        event.SparesSlot slot) :
    after.history.find? (Event.wrote slot) =
      before.history.find? (Event.wrote slot) := by
  rcases history_of_step taken with ⟨same, _⟩ | ⟨same, _⟩ |
    ⟨actor, choice, call, performs, _, _, same⟩
  · rw [same]
  · rw [same]
  have own := (own_of_performed taken performs same).1 rfl
  rcases spares actor with kept | ⟨event, now, spares⟩
  · rw [own] at kept
    exact absurd kept (List.cons_ne_self _ _)
  · rw [history_of_own taken now, List.find?_cons_of_neg]
    rw [spares.wrote]
    exact Bool.false_ne_true

/-- The invariant of runs in which no request creates a job without having
reserved the slot. -/
structure OwnerInvariant (slot : String) (state : State) : Prop where
  trace : TraceInvariant False state
  disciplined : state.Disciplined (reservationDiscipline slot) State.trace
    ReservationDiscipline.Ends
  found : ∀ {pid jobId}, state.Uses slot pid →
    ¬did (state.own pid) Event.missed? jobId
  reserved : ∀ {pid}, state.Creating slot pid → state.Reserved slot pid

namespace OwnerInvariant

theorem initial : OwnerInvariant slot State.initial where
  trace := .initial
  disciplined _ _ _ found := by cases found
  found _ done := did_nil _ _ done
  reserved creating := (did_nil _ _ creating.holds.1).elim

/-- What a request with this slot has not done yet when it makes a call. -/
private theorem allowed {state : State}
    (invariant : OwnerInvariant slot state) {pid : Pid} {call : Call}
    (pending : state.pending? pid = some call)
    (uses : state.Uses slot pid) :
    (∀ event ∈ state.own pid, event.resolved? = none) ∧
      ∀ key, call = .delSlot key →
        ∀ event ∈ state.own pid, event.inserted? = none := by
  exact invariant.disciplined.allowed pending uses

/-- A request that creates a job, or resolves or releases its slot, has
reserved it. -/
private theorem creating {state : State}
    (invariant : OwnerInvariant slot state) {pid : Pid} {call : Call}
    {input : EnqueueInput} (pending : state.pending? pid = some call)
    (known : state.role? pid = some (.enqueue input))
    (named : slotName input = some slot)
    (entitled : Entitled input (state.own pid))
    (unreleased : ∀ key, ¬did (state.own pid) Event.released? key) :
    state.Creating slot pid where
  running := by rw [pending]; rfl
  holds := by
    have won := entitled.won named fun _ =>
      invariant.found ⟨input, known, named⟩
    exact ⟨won, unreleased slot⟩
  unresolved := (invariant.allowed pending ⟨input, known, named⟩).1

private theorem creating_of_insert {state : State}
    (invariant : OwnerInvariant slot state) {pid : Pid} {job : JobInput}
    (pending : state.pending? pid = some (.insertJob job))
    (uses : state.Uses slot pid) :
    state.Creating slot pid ∧
      ∀ job, ¬did (state.own pid) Event.inserted? job := by
  obtain ⟨role, known, allows⟩ := invariant.trace.allows pending
  obtain ⟨input, request, named⟩ := uses
  rw [known] at request
  cases request
  obtain ⟨_, _, _, entitled, uninserted, unreleased⟩ := allows
  exact ⟨invariant.creating pending known named entitled unreleased,
    uninserted⟩

private theorem creating_of_resolve {state : State}
    (invariant : OwnerInvariant slot state) {pid : Pid} {jobId : JobId}
    (pending : state.pending? pid = some (.setSlot slot jobId)) :
    state.Creating slot pid := by
  obtain ⟨role, known, allows⟩ := invariant.trace.allows pending
  cases role with
  | enqueue input =>
      obtain ⟨_, named, entitled, _, _, unreleased⟩ := allows
      exact invariant.creating pending known named entitled unreleased
  | worker => cases allows
  | replay limit => cases allows

private theorem creating_of_release {state : State}
    (invariant : OwnerInvariant slot state) {pid : Pid}
    (pending : state.pending? pid = some (.delSlot slot)) :
    state.Creating slot pid ∧
      ∀ event ∈ state.own pid, event.inserted? = none := by
  obtain ⟨role, known, allows⟩ := invariant.trace.allows pending
  cases role with
  | enqueue input =>
      obtain ⟨_, named, entitled, unreleased⟩ := allows
      exact ⟨invariant.creating pending known named entitled unreleased,
        (invariant.allowed pending ⟨input, known, named⟩).2 slot rfl⟩
  | worker => cases allows
  | replay limit => cases allows

/-- Only the owner of the slot creates a job or releases it. -/
theorem byOwner {state : State} (invariant : OwnerInvariant slot state)
    (action : Action) : ByOwner slot state action := by
  intro pid performs call pending
  cases call with
  | insertJob job =>
      intro uses
      exact invariant.reserved (invariant.creating_of_insert pending uses).1
  | delSlot key =>
      rintro rfl
      exact invariant.reserved (invariant.creating_of_release pending).1
  | _ => trivial

/-- One reservation is in use at a time. -/
theorem sole {state : State} (invariant : OwnerInvariant slot state)
    {pid other : Pid} (creating : state.Creating slot pid)
    (creatingToo : state.Creating slot other) : other = pid := by
  obtain ⟨_, event, last, rfl, _⟩ := invariant.reserved creating
  obtain ⟨_, event', last', rfl, _⟩ := invariant.reserved creatingToo
  rw [Option.mem_def] at last last'
  rw [last] at last'
  cases last'
  rfl

/-- A request that is creating its job after a step that does not write the
slot was doing so before. -/
private theorem creating_of_spares (invariant : OwnerInvariant slot before)
    (taken : WebhookDelivery.step deployment before action = some after)
    {pid : Pid} (spares : after.own pid = before.own pid ∨
      ∃ event, after.own pid = event :: before.own pid ∧
        event.SparesSlot slot)
    (creating : after.Creating slot pid) : before.Creating slot pid where
  running := by
    rcases running_of_step taken creating.running with running | ⟨_, rfl⟩
    · exact running
    · have won := creating.holds.1
      rw [invariant.trace.own_of_start taken] at won
      exact (did_nil _ _ won).elim
  holds := (holdsSlot_of_spares spares).mp creating.holds
  unresolved := by
    have unresolved := creating.unresolved
    rcases spares with same | ⟨event, same, _⟩
    · rwa [same] at unresolved
    · rw [same, List.forall_mem_cons] at unresolved
      exact unresolved.2

private theorem found_of_step (invariant : OwnerInvariant slot before)
    (finds : FindsRow slot before action)
    (taken : WebhookDelivery.step deployment before action = some after)
    {pid : Pid} {jobId : JobId} (uses : after.Uses slot pid) :
    ¬did (after.own pid) Event.missed? jobId := by
  intro done
  rcases did_of_step taken done with
    earlier | ⟨choice, call, performs, pending, _, misses⟩
  · obtain ⟨role, was⟩ := invariant.trace.role_of_did earlier
    obtain ⟨input, rfl, named⟩ := uses.role_of_step taken was
    exact invariant.found ⟨input, was, named⟩ earlier
  · obtain ⟨rfl, absent⟩ := Event.missed?_exec misses
    obtain ⟨role, was, _⟩ := invariant.trace.allows pending
    obtain ⟨input, rfl, named⟩ := uses.role_of_step taken was
    have present := finds pid performs ⟨input, was, named⟩ _ pending
    change (before.store.db.jobs jobId).isSome at present
    rw [absent] at present
    cases present

private theorem reserved_of_step (invariant : OwnerInvariant slot before)
    (outlives : Outlives slot before action)
    (taken : WebhookDelivery.step deployment before action = some after)
    {pid : Pid} (creating : after.Creating slot pid) :
    after.Reserved slot pid := by
  by_cases expires : Expires slot before action
  · cases action with
    | tick ms =>
        cases taken
        obtain ⟨event, member, _⟩ := creating.holds.1
        obtain ⟨member, same⟩ := List.mem_filter.mp member
        refine absurd ?_ (outlives expires event member)
        rw [of_decide_eq_true same]
        exact ⟨creating.running, creating.holds, creating.unresolved⟩
    | _ => cases expires
  have others : ∀ {actor}, action.performer? = some actor → pid ≠ actor →
      before.Creating slot pid := by
    intro actor performs distinct
    have own := own_of_others_call taken performs distinct
    exact invariant.creating_of_spares taken (.inl own) creating
  cases slot_of_step taken expires with
  | kept same spares =>
      obtain ⟨pending, last⟩ := invariant.reserved
        (invariant.creating_of_spares taken (spares pid) creating)
      refine ⟨same.trans pending, ?_⟩
      rw [find?_wrote_of_spares taken spares]
      exact last
  | reserved actor performs pending free now own =>
      by_cases acts : pid = actor
      · subst acts
        refine ⟨now, ⟨pid, .setSlotNx slot, .ok true⟩, ?_, rfl, rfl⟩
        rw [history_of_own taken own]
        exact List.find?_cons_of_pos (by simp [Event.wrote, Event.won?])
      · have held := (invariant.reserved (others performs acts)).1
        rw [free] at held
        cases held
  | resolved actor jobId performs pending now own =>
      have resolving := invariant.creating_of_resolve pending
      by_cases acts : pid = actor
      · subst acts
        have unresolved := creating.unresolved
        rw [own, List.forall_mem_cons] at unresolved
        cases unresolved.1
      · exact absurd (invariant.sole resolving (others performs acts)) acts
  | released actor performs pending now own =>
      have releasing := (invariant.creating_of_release pending).1
      by_cases acts : pid = actor
      · subst acts
        refine absurd ?_ creating.holds.2
        rw [own]
        exact (did_cons ..).mpr (.inl rfl)
      · exact absurd (invariant.sole releasing (others performs acts)) acts

theorem step (invariant : OwnerInvariant slot before)
    (unfailing : Unfailing slot before action)
    (keeps : KeepsReservations slot before action)
    (taken : WebhookDelivery.step deployment before action = some after) :
    OwnerInvariant slot after where
  trace := invariant.trace.step False.elim taken
  disciplined := by
    refine invariant.disciplined.step taken ?_
      (reservationDiscipline_respects unfailing taken)
    intro pid process found starts
    have known := State.role?_of_found found
    apply ReservationDiscipline.main_follows _ _ known
    rintro ⟨input, request, _⟩
    rcases starts with rfl | worker
    · exact invariant.trace.own_of_start taken
    · change after.role? pid = _ at request
      rw [known, worker] at request
      cases request
  found := invariant.found_of_step keeps.1 taken
  reserved := invariant.reserved_of_step keeps.2 taken

end OwnerInvariant

/-! ## How many jobs are created until the slot expires -/

/-- The slot is taken, and the request that is creating a job under it, if
there is one, has inserted the row. -/
structure State.Spent (state : State) (slot : String) : Prop where
  taken : state.slot slot ≠ none
  inserted : ∀ {pid}, state.Creating slot pid →
    ∃ event ∈ state.own pid, event.inserted? ≠ none

/-- The rows of a slot after a step: the only one that adds a row is the insert
of a request with this tenant and key. -/
theorem rowsInserted_of_step {tenant key : String} {strict : Prop}
    (nonempty : key ≠ "") (invariant : TraceInvariant strict before)
    (taken : step deployment before action = some after) :
    after.rowsInserted tenant key = before.rowsInserted tenant key ∨
      ∃ pid job event, action.performer? = some pid ∧
        before.pending? pid = some (.insertJob job) ∧
        before.Uses (Idempotency.redisKey tenant key) pid ∧
        after.own pid = event :: before.own pid ∧
        event.inserted? ≠ none ∧
        after.rowsInserted tenant key = before.rowsInserted tenant key + 1 := by
  -- Every process of the history has kept its role.
  have roles : ∀ event ∈ before.history,
      after.role? event.pid = before.role? event.pid := by
    intro event member
    cases known : before.role? event.pid with
    | some role => exact role_of_step taken known
    | none =>
        rw [State.role?, Option.map_eq_none_iff] at known
        have own : event ∈ before.own event.pid :=
          List.mem_filter.mpr ⟨member, decide_eq_true rfl⟩
        rw [invariant.unused known] at own
        cases own
  have earlier : before.history.countP (fun event =>
      event.inserted?.isSome &&
        (after.role? event.pid).any (Role.carries tenant key)) =
      before.rowsInserted tenant key := by
    refine List.countP_congr fun event member => ?_
    rw [roles event member]
  rcases history_of_step taken with ⟨same, _⟩ | ⟨same, _⟩ |
    ⟨actor, choice, call, performs, pending, _, same⟩
  · left
    rw [State.rowsInserted, same, earlier]
  · left
    rw [State.rowsInserted, same, earlier]
  rw [State.rowsInserted, same, List.countP_cons, earlier]
  split
  next counts =>
    right
    rw [Bool.and_eq_true] at counts
    obtain ⟨inserts, carries⟩ := counts
    obtain ⟨role, known, carries⟩ := (Option.any_eq_true _ _).mp carries
    obtain ⟨was, isRole, _⟩ := invariant.allows pending
    have stays := role_of_step taken isRole
    rw [known] at stays
    cases stays
    cases call with
    | insertJob job =>
        cases role with
        | enqueue input =>
            simp only [Role.carries, Bool.and_eq_true, decide_eq_true_eq]
              at carries
            obtain ⟨rfl, keyed⟩ := carries
            refine ⟨actor, job, _, performs, pending,
              ⟨input, isRole, slotName_of_key keyed nonempty⟩,
              (own_of_performed taken performs same).1 rfl, ?_, rfl⟩
            exact Option.isSome_iff_ne_none.mp inserts
        | worker => cases carries
        | replay limit => cases carries
    | _ => cases inserts
  next => exact .inl rfl

namespace OwnerInvariant

/-- Until the slot expires nobody releases it. -/
private theorem spent_of_step (invariant : OwnerInvariant slot before)
    (lasts : ¬Expires slot before action)
    (taken : WebhookDelivery.step deployment before action = some after)
    (spent : before.Spent slot) : after.Spent slot := by
  have others : ∀ {actor pid}, action.performer? = some actor →
      pid ≠ actor → after.Creating slot pid →
        ∃ event ∈ after.own pid, event.inserted? ≠ none := by
    intro actor pid performs distinct creating
    have own := own_of_others_call taken performs distinct
    rw [own]
    exact spent.inserted
      (invariant.creating_of_spares taken (.inl own) creating)
  cases slot_of_step taken lasts with
  | kept same spares =>
      constructor
      · rw [same]
        exact spent.taken
      · intro pid creating
        obtain ⟨event, member, inserts⟩ := spent.inserted
          (invariant.creating_of_spares taken (spares pid) creating)
        refine ⟨event, ?_, inserts⟩
        rcases spares pid with own | ⟨new, own, _⟩
        · rwa [own]
        · rw [own]
          exact List.mem_cons_of_mem _ member
  | reserved actor performs pending free now own =>
      exact absurd free spent.taken
  | resolved actor jobId performs pending now own =>
      constructor
      · rw [now]
        exact Option.some_ne_none _
      · intro pid creating
        by_cases acts : pid = actor
        · subst acts
          have unresolved := creating.unresolved
          rw [own, List.forall_mem_cons] at unresolved
          cases unresolved.1
        · exact others performs acts creating
  | released actor performs pending now own =>
      obtain ⟨creating, uninserted⟩ := invariant.creating_of_release pending
      obtain ⟨event, member, inserts⟩ := spent.inserted creating
      exact absurd (uninserted event member) inserts

/-- The insert of a row spends the reservation. -/
private theorem spent_of_insert (invariant : OwnerInvariant slot before)
    (lasts : ¬Expires slot before action)
    (taken : WebhookDelivery.step deployment before action = some after)
    {pid : Pid} {job : JobInput} {event : Event}
    (performs : action.performer? = some pid)
    (pending : before.pending? pid = some (.insertJob job))
    (uses : before.Uses slot pid)
    (own : after.own pid = event :: before.own pid)
    (inserts : event.inserted? ≠ none) : after.Spent slot := by
  have creating := (invariant.creating_of_insert pending uses).1
  have unwritten : ∀ {actor call}, action.performer? = some actor →
      before.pending? actor = some call → call = .insertJob job := by
    intro actor call acts isCall
    rw [performs] at acts
    cases acts
    rw [pending] at isCall
    exact (Option.some.inj isCall).symm
  cases slot_of_step taken lasts with
  | kept same spares =>
      constructor
      · rw [same, (invariant.reserved creating).1]
        exact Option.some_ne_none _
      · intro other creatingToo
        have creatingBefore :=
          invariant.creating_of_spares taken (spares other) creatingToo
        rw [invariant.sole creating creatingBefore, own]
        exact ⟨event, List.mem_cons_self, inserts⟩
  | reserved actor acts isCall => cases unwritten acts isCall
  | resolved actor jobId acts isCall => cases unwritten acts isCall
  | released actor acts isCall => cases unwritten acts isCall

end OwnerInvariant

/-- At most one row has been inserted under the slot since there were `first`,
and then the slot is spent. -/
structure FreshJobs (tenant key : String) (first : Nat) (state : State) :
    Prop where
  owners : OwnerInvariant (Idempotency.redisKey tenant key) state
  once : state.rowsInserted tenant key = first ∨
    state.rowsInserted tenant key = first + 1 ∧
      state.Spent (Idempotency.redisKey tenant key)

theorem FreshJobs.step {tenant key : String} {first : Nat}
    (fresh : FreshJobs tenant key first before) (nonempty : key ≠ "")
    (lasts : ¬Expires (Idempotency.redisKey tenant key) before action)
    (owners : OwnerInvariant (Idempotency.redisKey tenant key) after)
    (taken : WebhookDelivery.step deployment before action = some after) :
    FreshJobs tenant key first after where
  owners := owners
  once := by
    rcases rowsInserted_of_step nonempty fresh.owners.trace taken with
      same | ⟨pid, job, event, performs, pending, uses, own, inserts, added⟩
    · rw [same]
      exact fresh.once.imp_right fun ⟨rows, spent⟩ =>
        ⟨rows, fresh.owners.spent_of_step lasts taken spent⟩
    · obtain ⟨creating, uninserted⟩ :=
        fresh.owners.creating_of_insert pending uses
      right
      rcases fresh.once with rows | ⟨_, spent⟩
      · rw [added, rows]
        exact ⟨rfl, fresh.owners.spent_of_insert lasts taken performs pending
          uses own inserts⟩
      · obtain ⟨earlier, member, inserted⟩ := spent.inserted creating
        obtain ⟨job, same⟩ := Option.ne_none_iff_exists'.mp inserted
        exact absurd ⟨earlier, member, same⟩ (uninserted job)

/-- In every run in which no call of a request with this tenant and key fails,
a request that looks up the job of the slot finds its row, and the slot
outlives the creation of a job: a row is inserted, and the slot released, under
a reservation of the request's own, and from any state on at most one job is
created until the slot expires. -/
theorem only_owner_creates (deployment : Deployment) (tenant key : String)
    (nonempty : key ≠ "") (earlier later : List Action)
    (unfailing : ∀ transition ∈
      transitions (step deployment) State.initial (earlier ++ later),
        Unfailing (Idempotency.redisKey tenant key) transition.before
          transition.action)
    (keeps : ∀ transition ∈
      transitions (step deployment) State.initial (earlier ++ later),
        KeepsReservations (Idempotency.redisKey tenant key) transition.before
          transition.action) :
    (∀ transition ∈
      transitions (step deployment) State.initial (earlier ++ later),
        ByOwner (Idempotency.redisKey tenant key) transition.before
          transition.action) ∧
      ∀ start, run (step deployment) State.initial earlier = some start →
        (∀ transition ∈ transitions (step deployment) start later,
          ¬Expires (Idempotency.redisKey tenant key) transition.before
            transition.action) →
          ∀ transition ∈ transitions (step deployment) start later,
            transition.after.rowsInserted tenant key ≤
              start.rowsInserted tenant key + 1 := by
  have allowed : ∀ transition ∈
      transitions (step deployment) State.initial (earlier ++ later),
        Unfailing (Idempotency.redisKey tenant key) transition.before
            transition.action ∧
          KeepsReservations (Idempotency.redisKey tenant key)
            transition.before transition.action :=
    fun transition member =>
      ⟨unfailing transition member, keeps transition member⟩
  have kept : ∀ before action after,
      OwnerInvariant (Idempotency.redisKey tenant key) before →
        Unfailing (Idempotency.redisKey tenant key) before action ∧
          KeepsReservations (Idempotency.redisKey tenant key) before action →
        step deployment before action = some after →
          OwnerInvariant (Idempotency.redisKey tenant key) after :=
    fun _ _ _ invariant allowed taken =>
      invariant.step allowed.1 allowed.2 taken
  constructor
  · intro transition member
    exact (invariant_of_transitions _ kept .initial allowed transition
      member).1.byOwner transition.action
  intro start runs lasts
  rw [transitions_append runs] at allowed
  have reached : OwnerInvariant (Idempotency.redisKey tenant key) start := by
    refine Reachable.invariant _ .initial kept (Reachable.of_run runs ?_)
    exact fun transition member =>
      allowed transition (List.mem_append_left _ member)
  intro transition member
  have fresh := (@invariant_of_transitions _ _ (step deployment)
    (FreshJobs tenant key (start.rowsInserted tenant key))
    (fun state action =>
      (Unfailing (Idempotency.redisKey tenant key) state action ∧
        KeepsReservations (Idempotency.redisKey tenant key) state action) ∧
      ¬Expires (Idempotency.redisKey tenant key) state action)
    (fun _ _ _ fresh allowed taken => fresh.step nonempty allowed.2
      (kept _ _ _ fresh.owners allowed.1 taken) taken)
    _ ⟨reached, .inl rfl⟩ _ (fun transition member =>
      ⟨allowed transition (List.mem_append_right _ member),
        lasts transition member⟩) transition member).2
  rcases fresh.once with rows | ⟨rows, _⟩
  · omega
  · omega

/-! ## Retries of an event whose job is gone -/

def secondWebhook : WebhookRow :=
  { exampleWebhook with id := 9 }

/-- The job that the first request has created is deleted with its webhook. -/
def jobGone : List Action :=
  [.registerWebhook exampleWebhook, .registerWebhook secondWebhook,
      .start 0 (.enqueue keyedEvent)] ++
    calls 0 2 ++ .call 0 { uuid := 2 } :: calls 0 3 ++ [.deleteWebhook 1]

/-- Two retries under the same key, for another webhook. -/
def retriesAtOnce : List Action :=
  [.start 1 (.enqueue { keyedEvent with webhookId := 9 }),
      .start 2 (.enqueue { keyedEvent with webhookId := 9 })] ++
    calls 1 2 ++ calls 2 2

/-- The slot expires between the deletion and the retries: the first of them
reserves it and creates a job, and the second is told to wait. -/
def reservedAnew : List Action :=
  retriesAtOnce ++ [.call 2 {}, .call 1 { uuid := 3 }] ++ calls 1 3

theorem only_owner_creates_reservedAnew :
    (run (step {}) State.initial
        ((jobGone ++ [.tick 86400000]) ++ reservedAnew)).isSome ∧
      ∀ transition ∈ transitions (step {}) State.initial
          ((jobGone ++ [.tick 86400000]) ++ reservedAnew),
        ByOwner (Idempotency.redisKey "acme" "order-7") transition.before
          transition.action :=
  ⟨by decide +kernel, (only_owner_creates {} "acme" "order-7" (by decide)
    (jobGone ++ [.tick 86400000]) reservedAnew (by decide +kernel)
    (by decide +kernel)).1⟩

/-- Both retries find that the job of the slot has no row, and insert one. -/
def createdTwice : List Action :=
  retriesAtOnce ++ calls 1 2 ++ calls 2 2 ++
    [.call 1 { uuid := 3 }, .call 2 { uuid := 4 }]

/-- A request inserts a row without having reserved the slot, and two jobs are
created for the one that is gone, although no call fails and the slot lasts. -/
theorem gone_job_created_twice :
    (¬∀ tenant key, key ≠ "" → ∀ actions,
      (∀ transition ∈ transitions (step {}) State.initial actions,
        Unfailing (Idempotency.redisKey tenant key) transition.before
            transition.action ∧
          ¬Expires (Idempotency.redisKey tenant key) transition.before
            transition.action) →
      ∀ transition ∈ transitions (step {}) State.initial actions,
        ByOwner (Idempotency.redisKey tenant key) transition.before
          transition.action) ∧
    ¬∀ tenant key, key ≠ "" → ∀ earlier later,
      (∀ transition ∈ transitions (step {}) State.initial (earlier ++ later),
        Unfailing (Idempotency.redisKey tenant key) transition.before
            transition.action ∧
          ¬Expires (Idempotency.redisKey tenant key) transition.before
            transition.action) →
      ∀ start, run (step {}) State.initial earlier = some start →
        ∀ transition ∈ transitions (step {}) start later,
          transition.after.rowsInserted tenant key ≤
            start.rowsInserted tenant key + 1 := by
  have allowed : ∀ transition ∈ transitions (step {}) State.initial
      (jobGone ++ createdTwice),
        Unfailing (Idempotency.redisKey "acme" "order-7") transition.before
            transition.action ∧
          ¬Expires (Idempotency.redisKey "acme" "order-7") transition.before
            transition.action := by
    decide +kernel
  constructor
  · intro owned
    have unowned : ¬∀ transition ∈ transitions (step {}) State.initial
        (jobGone ++ createdTwice),
          ByOwner (Idempotency.redisKey "acme" "order-7") transition.before
            transition.action := by
      decide +kernel
    exact unowned (owned "acme" "order-7" (by decide) _ allowed)
  · intro once
    have exceeded : ∃ start, run (step {}) State.initial jobGone = some start ∧
        ¬∀ transition ∈ transitions (step {}) start createdTwice,
          transition.after.rowsInserted "acme" "order-7" ≤
            start.rowsInserted "acme" "order-7" + 1 :=
      ⟨(run (step {}) State.initial jobGone).get (by decide +kernel),
        (Option.some_get _).symm, by decide +kernel⟩
    obtain ⟨start, runs, exceeded⟩ := exceeded
    exact exceeded (once "acme" "order-7" (by decide) jobGone createdTwice
      allowed start runs)

end WebhookDelivery
