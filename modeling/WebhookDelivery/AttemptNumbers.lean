import WebhookDelivery.AuditTrail
import WebhookDelivery.Shadows
import WebhookDelivery.Windows

/-!
# Attempt numbers on the wire

The number of a request is the next one of the trail as the worker has read
it, and the request gets its row after it has been answered.  The numbers on
the wire are told apart, and each has its row, as long as the windows of two
deliveries of a job are kept apart, none is cut short, and `fetch` has no reason
to send a request twice.
-/

namespace WebhookDelivery

open Concurrency

/-! ## The property -/

/-- The requests that go out in a call: `fetch` sends its request, and again as
often as the endpoint has it do so. -/
def Call.requests (deployment : Deployment) (choice : Choice) :
    Call → List (JobId × Nat)
  | .fetch request =>
      if deployment.sends request.url request.eventType then
        List.replicate (choice.resends + 1) (request.jobId, request.attempt)
      else []
  | _ => []

/-- The requests that go out in a step. -/
def requestsIn (deployment : Deployment)
    (transition : Transition State Action) : List (JobId × Nat) :=
  match transition.action with
  | .call pid choice =>
      ((transition.before.pending? pid).map
        (Call.requests deployment choice)).getD []
  | _ => []

/-- The requests that have gone out in a run, in order. -/
def wire (deployment : Deployment) (actions : List Action) :
    List (JobId × Nat) :=
  (transitions (step deployment) State.initial actions).flatMap
    (requestsIn deployment)

/-- The job and the number of the request of a call of `fetch` that got to the
network. -/
def Event.sent? (deployment : Deployment) : Event → Option (JobId × Nat)
  | ⟨_, .fetch request, _⟩ =>
      if deployment.sends request.url request.eventType then
        some (request.jobId, request.attempt)
      else none
  | _ => none

/-- What the calls of `fetch` have sent, each once, latest first. -/
def State.sent (deployment : Deployment) (state : State) :
    List (JobId × Nat) :=
  state.history.filterMap (Event.sent? deployment)

/-- The request that has gone out since the last call other than a reading of
the clock or of the response. -/
def lastSent (deployment : Deployment) : List Event → Option (JobId × Nat)
  | [] => none
  | ⟨_, .responseText, _⟩ :: earlier => lastSent deployment earlier
  | ⟨_, .now, _⟩ :: earlier => lastSent deployment earlier
  | event :: _ => event.sent? deployment

/-- The request whose row a process is about to insert. -/
def State.underway (deployment : Deployment) (state : State) (pid : Pid) :
    Option (JobId × Nat) :=
  match state.pending? pid with
  | some .responseText | some .now | some (.insertAttempt _) =>
      lastSent deployment (state.own pid)
  | _ => none

/-- No two of the requests for a job carry the same number, and every request
has exactly one row with its number, unless its sender is about to insert
it. -/
structure NumberedApart (deployment : Deployment)
    (requests : List (JobId × Nat)) (state : State) : Prop where
  distinct : requests.Nodup
  recorded : ∀ sent ∈ requests,
    (state.store.db.numbersOf sent.1).count sent.2 = 1 ∨
      (state.store.db.numbersOf sent.1).count sent.2 = 0 ∧
        ∃ pid, state.underway deployment pid = some sent

/-! ## Windows that are kept apart -/

/-- An attempt of the job has been recorded since the process has read its
number. -/
def recordedSince (pid : Pid) (jobId : JobId) : List Event → Bool
  | [] => false
  | event :: earlier =>
      if event.pid = pid ∧ event.numbered?.map Prod.fst = some jobId then false
      else event.recorded? = some jobId || recordedSince pid jobId earlier

/-- A request goes out when no other request for its job has its row still to
come, and none has got its row since the number was read.  A row that is owed
is not refused. -/
def Call.InTurn (deployment : Deployment) (state : State) (pid : Pid) :
    Call → Prop
  | .fetch request => deployment.sends request.url request.eventType →
      (∀ event ∈ state.history, event.pid ≠ pid →
        ∀ sent ∈ state.underway deployment event.pid,
          sent.1 ≠ request.jobId) ∧
      recordedSince pid request.jobId state.history = false
  | .insertAttempt record => (state.underway deployment pid).isSome →
      (state.store.db.jobs record.jobId).isSome ∧
        record.responseBody.all storableText ∧ record.error.all storableText
  | _ => True

instance (deployment : Deployment) (state : State) (pid : Pid) :
    DecidablePred (Call.InTurn deployment state pid) :=
  fun call => by
    induction call using Call.casesOn <;> unfold Call.InTurn <;> infer_instance

/-- Calls are made in turn, no process that owes a row crashes or fails to
insert it, and no job is deleted for which a request has gone out. -/
def KeepsWindows (deployment : Deployment) (state : State) : Action → Prop
  | .call pid _ | .failLate pid _ _ =>
      ∀ call ∈ state.pending? pid, call.InTurn deployment state pid
  | .fail pid _ | .crash pid => state.underway deployment pid = none
  | .deleteWebhook id => ∀ sent ∈ state.sent deployment,
      ∀ row ∈ state.store.db.jobs sent.1, row.webhookId ≠ id
  | _ => True

instance (deployment : Deployment) (state : State) :
    DecidablePred (KeepsWindows deployment state) :=
  fun action => by
    induction action using Action.casesOn <;> unfold KeepsWindows <;>
      infer_instance

/-- The endpoint neither redirects a request nor answers it with 421. -/
def Call.SentOnce (deployment : Deployment) (choice : Choice) : Call → Prop
  | .fetch request => deployment.sends request.url request.eventType →
      choice.resends = 0
  | _ => True

instance (deployment : Deployment) (choice : Choice) :
    DecidablePred (Call.SentOnce deployment choice) :=
  fun call => by
    induction call using Call.casesOn <;> unfold Call.SentOnce <;>
      infer_instance

/-- No call of `fetch` sends its request more than once. -/
def SendsOnce (deployment : Deployment) (state : State) : Action → Prop
  | .call pid choice => ∀ call ∈ state.pending? pid,
      call.SentOnce deployment choice
  | _ => True

instance (deployment : Deployment) (state : State) :
    DecidablePred (SendsOnce deployment state) :=
  fun action => by
    induction action using Action.casesOn <;> unfold SendsOnce <;>
      infer_instance

/-! ## How the trail changes -/

variable {deployment : Deployment} {before after : State} {action : Action}

/-- What one more call adds to the requests. -/
theorem sent_cons {event : Event} {later : State}
    (history : later.history = event :: before.history) :
    later.sent deployment =
      (event.sent? deployment).toList ++ before.sent deployment := by
  rw [State.sent, history, List.filterMap_cons]
  split
  next none =>
    rw [none]
    rfl
  next sent out =>
    rw [out]
    rfl

/-- A step takes records from the trail, or appends one that has a row and
whose number is new. -/
theorem attempts_of_step
    (taken : step deployment before action = some after) :
    after.store.db.deliveryAttempts.Sublist
        before.store.db.deliveryAttempts ∨
      ∃ event record, after.history = event :: before.history ∧
        event.recorded? = some record.jobId ∧
        record.attemptNumber ∉ before.store.db.numbersOf record.jobId ∧
        after.store.db.deliveryAttempts =
          before.store.db.deliveryAttempts ++ [record] := by
  cases steps_of_step taken with
  | @performed _ pid choice process call =>
      rcases exec_deliveryAttempts deployment choice call before.store pid with
        ⟨same, _⟩ | ⟨record, rfl, unrecorded, appended, recorded⟩
      · exact .inl (same ▸ List.Sublist.refl _)
      · exact .inr ⟨_, record, rfl, recorded, unrecorded, appended⟩
  | deleted => exact .inl List.filter_sublist
  | start | failed | crashed | shutdown | promoted | reaped | ticked
  | registered => exact .inl (List.Sublist.refl _)

theorem numbersOf_sublist {db other : Postgres}
    (fewer : other.deliveryAttempts.Sublist db.deliveryAttempts)
    (jobId : JobId) : (other.numbersOf jobId).Sublist (db.numbersOf jobId) :=
  (fewer.filter _).map _

/-- A number that appears in the trail is recorded in the step. -/
theorem recorded_of_new (taken : step deployment before action = some after)
    {jobId : JobId} {number : Nat}
    (absent : number ∉ before.store.db.numbersOf jobId)
    (present : number ∈ after.store.db.numbersOf jobId) :
    ∃ event, after.history = event :: before.history ∧
      event.recorded? = some jobId := by
  rcases attempts_of_step taken with
    fewer | ⟨event, record, history, recorded, _, appended⟩
  · exact absurd ((numbersOf_sublist fewer jobId).subset present) absent
  · rw [numbersOf_append appended] at present
    split at present
    next same => exact ⟨event, history, same ▸ recorded⟩
    · rw [List.append_nil] at present
      exact absurd present absent

/-- The next number of a job is not in its trail. -/
theorem nextAttemptNumber_notMem (db : Postgres) (jobId : JobId) :
    db.nextAttemptNumber jobId ∉ db.numbersOf jobId := by
  intro member
  have below := List.le_max_of_mem member
  have next : db.nextAttemptNumber jobId =
      max 0 ((db.numbersOf jobId).max (List.ne_nil_of_mem member)) + 1 :=
    congrArg (· + 1) (List.foldl_max_eq_max (List.ne_nil_of_mem member))
  omega

/-! ## Where processes are -/

/-- A process that does not take the step is suspended at the call it was
suspended at. -/
theorem pending_of_other {pid : Pid}
    (taken : step deployment before action = some after)
    (other : action.actor? ≠ some pid) :
    after.pending? pid = before.pending? pid := by
  have distinct : ∀ {actor}, action.actor? = some actor → pid ≠ actor := by
    rintro actor acts rfl
    exact other acts
  cases steps_of_step taken with
  | start | failed | crashed =>
      simp only [State.pending?, State.setProcess_of_ne _ (distinct rfl)]
  | performed _ _ _ resumes =>
      simp only [State.pending?,
        State.perform_of_ne _ _ _ _ _ _ (distinct resumes.performer?.2)]
  | @shutdown actor process found =>
      by_cases own : pid = actor
      · subst own
        simp only [State.pending?, State.setProcess_self, found,
          Option.bind_some, Process.pending?, Process.shutdown_status]
      · simp only [State.pending?, State.setProcess_of_ne _ own]
  | reaped =>
      simp only [State.pending?, State.reap, Option.bind_map]
      rfl
  | promoted | ticked | registered | deleted => rfl

/-- What a process has done so far, seen from the window it is in. -/
def Window.Borne (deployment : Deployment) (pid : Pid) (window : Window)
    (state : State) : Prop :=
  match window with
  | .closed => lastSent deployment (state.own pid) = none
  | .numbered jobId number => lastSent deployment (state.own pid) = none ∧
      (recordedSince pid jobId state.history = false →
        number ∉ state.store.db.numbersOf jobId)
  | .sent jobId number => ∀ sent,
      lastSent deployment (state.own pid) = some sent → sent = (jobId, number)

/-- The calls between a request and its row. -/
def Call.finishes : Call → Bool
  | .responseText | .now | .insertAttempt _ => true
  | _ => false

theorem underway_of_finishes {state : State} {pid : Pid} {call : Call}
    (pending : state.pending? pid = some call) (finishes : call.finishes) :
    state.underway deployment pid =
      lastSent deployment (state.own pid) := by
  unfold State.underway
  rw [pending]
  cases call <;> first | rfl | cases finishes

theorem finishes_of_underway {state : State} {pid : Pid} {call : Call}
    {sent : JobId × Nat} (pending : state.pending? pid = some call)
    (owes : state.underway deployment pid = some sent) :
    call.finishes ∧ lastSent deployment (state.own pid) = some sent := by
  unfold State.underway at owes
  rw [pending] at owes
  cases call <;> first | exact ⟨rfl, owes⟩ | cases owes

theorem pending_of_underway {state : State} {pid : Pid}
    {sent : JobId × Nat}
    (owes : state.underway deployment pid = some sent) :
    ∃ call, state.pending? pid = some call := by
  unfold State.underway at owes
  cases pending : state.pending? pid with
  | none =>
      rw [pending] at owes
      cases owes
  | some call => exact ⟨call, rfl⟩

/-- In the window after `fetch`, a process is at one of these calls. -/
theorem finishes_of_allows {jobId : JobId} {number : Nat} {call : Call}
    (allowed : (Window.sent jobId number).Allows call) : call.finishes := by
  cases call <;> first | rfl | cases allowed

theorem lastSent_of_stored {pid : Pid} {call : Call}
    {outcome : Except AppError call.Reply} (stored : call.onStore)
    (earlier : List Event) :
    lastSent deployment (⟨pid, call, outcome⟩ :: earlier) = none := by
  cases call <;> first | rfl | cases stored

theorem recordedSince_cons {pid : Pid} {jobId : JobId} {event : Event}
    {earlier : List Event}
    (none : recordedSince pid jobId (event :: earlier) = false)
    (unnumbered : ¬(event.pid = pid ∧
      event.numbered?.map Prod.fst = some jobId)) :
    event.recorded? ≠ some jobId ∧
      recordedSince pid jobId earlier = false := by
  simp only [recordedSince, unnumbered, if_false, Bool.or_eq_false_iff,
    decide_eq_false_iff_not] at none
  exact none

/-- The call of a window leaves its process in the next window. -/
theorem Window.Borne.performed {window : Window} {pid : Pid} {choice : Choice}
    {call : Call} (borne : window.Borne deployment pid before)
    (allowed : window.Allows call)
    (store : after.store = (exec deployment choice call before.store).2)
    (history : after.history = ⟨pid, call, (exec deployment choice call
      before.store).1⟩ :: before.history) :
    (window.after call (exec deployment choice call before.store).1).Borne
      deployment pid after := by
  have own : after.own pid = ⟨pid, call, (exec deployment choice call
      before.store).1⟩ :: before.own pid :=
    (own_cons history).trans (if_pos rfl)
  cases window with
  | closed =>
      change lastSent deployment (before.own pid) = none at borne
      cases call with
      | fetch request => cases allowed
      | nextAttemptNumber jobId =>
          refine ⟨by rw [own]; rfl, fun _ => ?_⟩
          rw [store]
          exact nextAttemptNumber_notMem _ _
      | now | responseText =>
          change lastSent deployment (after.own pid) = none
          rw [own]
          exact borne
      | _ =>
          change lastSent deployment (after.own pid) = none
          rw [own]
          rfl
  | numbered jobId number =>
      cases call with
      | now =>
          obtain ⟨unsent, fresh⟩ := borne
          refine ⟨by rw [own]; exact unsent, fun since => ?_⟩
          rw [history] at since
          rw [store]
          exact fresh (recordedSince_cons since nofun).2
      | fetch request =>
          obtain ⟨rfl, rfl⟩ := allowed
          intro sent last
          rw [own] at last
          simp only [lastSent, Event.sent?] at last
          split at last
          · exact (Option.some.inj last).symm
          · cases last
      | _ => cases allowed
  | sent jobId number =>
      cases call with
      | now | responseText =>
          intro sent last
          rw [own] at last
          exact borne sent last
      | insertAttempt record =>
          change lastSent deployment (after.own pid) = none
          rw [own]
          rfl
      | _ => cases allowed

/-- A process that owes no row is outside of windows once its call fails. -/
theorem Window.Borne.closed {window : Window} {pid : Pid} {call : Call}
    (borne : window.Borne deployment pid before)
    (allowed : window.Allows call)
    (pending : before.pending? pid = some call)
    (owesNone : before.underway deployment pid = none) :
    lastSent deployment (before.own pid) = none := by
  cases window with
  | closed => exact borne
  | numbered jobId number => exact borne.1
  | sent jobId number =>
      rw [← underway_of_finishes pending (finishes_of_allows allowed)]
      exact owesNone

/-- What other processes do leaves the windows of a process alone. -/
theorem Window.Borne.others {window : Window} {pid : Pid}
    (borne : window.Borne deployment pid before)
    (taken : step deployment before action = some after)
    (other : action.actor? ≠ some pid) :
    window.Borne deployment pid after := by
  have quiet : action.performer? ≠ some pid := fun performs =>
    other (Action.actor?_of_performer? performs)
  have own := own_of_other taken quiet
  cases window with
  | closed => exact (congrArg (lastSent deployment) own).trans borne
  | sent jobId number =>
      intro sent last
      rw [own] at last
      exact borne sent last
  | numbered jobId number =>
      refine ⟨(congrArg (lastSent deployment) own).trans borne.1, ?_⟩
      intro since present
      have earlier : recordedSince pid jobId before.history = false ∧
          ∀ event, after.history = event :: before.history →
            event.recorded? ≠ some jobId := by
        rcases history_of_step taken with ⟨same, _⟩ | ⟨same, _⟩ |
          ⟨actor, choice, call, performs, _, _, history⟩
        · refine ⟨same ▸ since, fun event more => ?_⟩
          simp [same] at more
        · refine ⟨same ▸ since, fun event more => ?_⟩
          simp [same] at more
        · rw [history] at since
          have both := recordedSince_cons since fun own =>
            quiet (performs.trans (congrArg some own.1))
          refine ⟨both.2, fun event more => ?_⟩
          rw [history] at more
          cases more
          exact both.1
      obtain ⟨event, history, recorded⟩ :=
        recorded_of_new taken (borne.2 earlier.1) present
      exact earlier.2 event history recorded

/-- A step that keeps the windows keeps every process to them. -/
theorem Window.shadows (trace : TraceInvariant False before)
    (keeps : KeepsWindows deployment before action)
    (taken : step deployment before action = some after) :
    Shadows deployment windowDiscipline (Window.Borne deployment)
      WindowDiscipline.Ends before action after where
  started {pid role} starts unused := by
    refine ⟨.closed, ?_, WindowDiscipline.main_follows deployment role⟩
    change lastSent deployment (after.own pid) = none
    rw [own_of_other taken (by simp [starts, Action.performer?]),
      trace.unused unused]
    rfl
  restarted {pid window outcome} ends borne :=
    ⟨.closed, ends ▸ borne, WindowDiscipline.main_follows deployment .worker⟩
  performed {pid choice call window} performs pending store history borne
      allowed := by
    refine ⟨_, ⟨exec_answers _ _ _ _, rfl⟩,
      Window.Borne.performed borne allowed store history,
      fun _ stored => ⟨trivial, ?_⟩⟩
    change lastSent deployment (after.own pid) = none
    rw [own_cons history, if_pos rfl]
    exact lastSent_of_stored stored _
  failed {pid failure call window} fails pending borne allowed := by
    subst fails
    refine ⟨trivial, ?_⟩
    change lastSent deployment (after.own pid) = none
    rw [own_of_other taken (by simp [Action.performer?])]
    exact Window.Borne.closed borne allowed pending keeps
  others other borne := Window.Borne.others borne taken other

/-! ## The invariant -/

/-- Every process keeps to its windows, every record has its job, and every
request that has gone out has its row or is about to get it. -/
structure WindowInvariant (deployment : Deployment) (state : State) :
    Prop where
  trace : TraceInvariant False state
  shadowed : state.Shadowed windowDiscipline (Window.Borne deployment)
    WindowDiscipline.Ends
  unique : ∀ jobId, (state.store.db.numbersOf jobId).Nodup
  stored : ∀ record ∈ state.store.db.deliveryAttempts,
    (state.store.db.jobs record.jobId).isSome
  distinct : (state.sent deployment).Nodup
  kept : ∀ sent ∈ state.sent deployment,
    sent.2 ∈ state.store.db.numbersOf sent.1 ∨
      ∃ pid, state.underway deployment pid = some sent

namespace WindowInvariant

theorem initial : WindowInvariant deployment State.initial where
  trace := .initial
  shadowed _ _ _ found := by cases found
  unique _ := List.nodup_nil
  stored _ member := by cases member
  distinct := List.nodup_nil
  kept _ member := by cases member

theorem numberedApart {state : State}
    (invariant : WindowInvariant deployment state) :
    NumberedApart deployment (state.sent deployment) state where
  distinct := invariant.distinct
  recorded sent out := by
    by_cases present : sent.2 ∈ state.store.db.numbersOf sent.1
    · exact .inl (List.count_eq_one_of_mem (invariant.unique _) present)
    · refine .inr ⟨List.count_eq_zero_of_not_mem present, ?_⟩
      exact (invariant.kept sent out).resolve_left present

/-- The window that a process is in. -/
theorem window (invariant : WindowInvariant deployment before) {pid : Pid}
    {call : Call} (pending : before.pending? pid = some call) :
    ∃ window : Window, window.Borne deployment pid before ∧
      window.Allows call := by
  obtain ⟨process, next, rescue, found, running⟩ :=
    State.running_of_pending? pending
  obtain ⟨window, borne, allowed, _⟩ :=
    invariant.shadowed.follows found running
  exact ⟨window, borne, allowed⟩

/-- The window of a process that owes a row. -/
theorem window_of_underway (invariant : WindowInvariant deployment before)
    {pid : Pid} {call : Call} {sent : JobId × Nat}
    (pending : before.pending? pid = some call)
    (owes : before.underway deployment pid = some sent) :
    (Window.sent sent.1 sent.2).Allows call := by
  obtain ⟨window, borne, allowed⟩ := invariant.window pending
  obtain ⟨_, last⟩ := finishes_of_underway pending owes
  cases window with
  | closed => cases last.symm.trans borne
  | numbered jobId number => cases last.symm.trans borne.1
  | sent jobId number =>
      rw [borne sent last]
      exact allowed

/-- A process past its `fetch` has another call to make. -/
theorem goes_on (invariant : WindowInvariant deployment before)
    (taken : step deployment before action = some after) {pid : Pid}
    {call : Call} (performs : action.performer? = some pid)
    (pending : before.pending? pid = some call)
    (offStore : call.onStore = false)
    (past : ∀ window : Window, window.Allows call →
      window.Borne deployment pid before →
        ∃ jobId number, ∀ outcome,
          window.after call outcome = .sent jobId number) :
    ∃ call, after.pending? pid = some call ∧ call.finishes := by
  obtain ⟨choice, process, next, rescue, resumed, found, running, resumes,
    rfl⟩ := performed_of_performer? taken performs pending
  obtain ⟨window, borne, allowed, _, completed⟩ :=
    invariant.shadowed.follows found running
  obtain ⟨jobId, number, goes⟩ := past window allowed borne
  have follows := (completed (exec deployment choice call before.store).1 _
    ⟨exec_answers _ _ _ _, rfl⟩).2
  rw [goes] at follows
  cases resumes with
  | unanswered onStore =>
      rw [offStore] at onStore
      cases onStore
  | replied =>
      cases continues : Program.resume next rescue
          (exec deployment choice call before.store).1 with
      | pure value =>
          rw [continues] at follows
          cases follows _ rfl
      | throw failure =>
          rw [continues] at follows
          cases follows _ rfl
      | call later next' rescue' =>
          rw [continues] at follows
          refine ⟨later, ?_, finishes_of_allows (follows _ rfl).1⟩
          rw [State.pending?, State.perform_self]
          simp only [Process.replied, continues, Process.proceed,
            Option.bind_some, Process.pending?, Program.request?]

theorem inTurn_of_keeps (keeps : KeepsWindows deployment before action)
    {pid : Pid} {call : Call} (performs : action.performer? = some pid)
    (pending : before.pending? pid = some call) :
    call.InTurn deployment before pid := by
  cases action <;> cases performs <;> exact keeps call pending

/-- A row that is not refused is there afterwards. -/
private theorem inserted_of_inTurn (deployment : Deployment)
    (choice : Choice) {record : AttemptRecord} {store : Store}
    (job : (store.db.jobs record.jobId).isSome)
    (response : record.responseBody.all storableText)
    (error : record.error.all storableText) :
    record.attemptNumber ∈ (exec deployment choice
      (.insertAttempt record) store).2.db.numbersOf record.jobId := by
  have unrefused : ¬(store.db.jobs record.jobId).isNone := by
    simpa [Option.isSome_iff_ne_none] using job
  simp only [exec, Postgres.insertAttempt, unrefused, response, error,
    Bool.and_self, Bool.not_true, Bool.false_eq_true, if_false]
  split
  next present => exact present
  · rw [Store.withDb, numbersOf_append rfl]
    simp

/-- A row that is owed is inserted in the step, or still owed after it. -/
private theorem kept_of_underway
    (invariant : WindowInvariant deployment before)
    (keeps : KeepsWindows deployment before action)
    (taken : WebhookDelivery.step deployment before action = some after)
    {pid : Pid} {sent : JobId × Nat}
    (owes : before.underway deployment pid = some sent) :
    sent.2 ∈ after.store.db.numbersOf sent.1 ∨
      after.underway deployment pid = some sent := by
  obtain ⟨call, pending⟩ := pending_of_underway owes
  obtain ⟨finishes, last⟩ := finishes_of_underway pending owes
  have allowed := invariant.window_of_underway pending owes
  by_cases performs : action.performer? = some pid
  · obtain ⟨choice, process, next, rescue, resumed, found, running, resumes,
      same⟩ := performed_of_performer? taken performs pending
    have own : after.own pid = ⟨pid, call, (exec deployment choice call
        before.store).1⟩ :: before.own pid := by
      rw [same]
      exact (own_cons rfl).trans (if_pos rfl)
    have reads : call.onStore = false →
        lastSent deployment (after.own pid) = some sent →
          (∀ outcome, (Window.sent sent.1 sent.2).after call outcome =
            .sent sent.1 sent.2) →
            after.underway deployment pid = some sent := by
      intro offStore lastNow goes
      obtain ⟨later, pendingNow, finishesNow⟩ :=
        invariant.goes_on taken performs pending offStore (by
          intro window allowed borne
          cases window with
          | closed => cases last.symm.trans borne
          | numbered jobId number => cases last.symm.trans borne.1
          | sent jobId number =>
              cases borne sent last
              exact ⟨_, _, goes⟩)
      exact (underway_of_finishes pendingNow finishesNow).trans lastNow
    cases call with
    | responseText => exact .inr (reads rfl (by rw [own]; exact last)
        fun _ => rfl)
    | now => exact .inr (reads rfl (by rw [own]; exact last) fun _ => rfl)
    | insertAttempt record =>
        obtain ⟨sameJob, sameNumber⟩ := allowed
        obtain ⟨job, response, error⟩ :=
          inTurn_of_keeps keeps performs pending (by rw [owes]; rfl)
        refine .inl ?_
        rw [same, ← sameJob, ← sameNumber]
        exact inserted_of_inTurn deployment choice job response error
    | _ => cases finishes
  · by_cases acts : action.actor? = some pid
    · obtain ⟨process, _, _, found, _⟩ := State.running_of_pending? pending
      cases action with
      | start actor role =>
          cases acts
          cases steps_of_step taken with
          | start unused => cases unused.symm.trans found
          | performed _ _ _ resumes => cases resumes
      | fail actor failure =>
          cases acts
          cases owes.symm.trans keeps
      | crash actor =>
          cases acts
          cases owes.symm.trans keeps
      | call actor choice => exact absurd acts performs
      | failLate actor choice failure => exact absurd acts performs
      | _ => cases acts
    · refine .inr ?_
      rw [← owes, State.underway, pending_of_other taken acts,
        own_of_other taken performs]
      rfl

/-- The row of a request is not taken away. -/
private theorem kept_of_recorded
    (invariant : WindowInvariant deployment before)
    (keeps : KeepsWindows deployment before action)
    (taken : WebhookDelivery.step deployment before action = some after)
    {sent : JobId × Nat} (out : sent ∈ before.sent deployment)
    (present : sent.2 ∈ before.store.db.numbersOf sent.1) :
    sent.2 ∈ after.store.db.numbersOf sent.1 := by
  cases steps_of_step taken with
  | @performed _ pid choice process call =>
      change sent.2 ∈ (exec deployment choice call
        before.store).2.db.numbersOf sent.1
      rcases exec_deliveryAttempts deployment choice call before.store pid with
        ⟨same, _⟩ | ⟨record, rfl, _, appended, _⟩
      · rw [Postgres.numbersOf, attemptsOf_congr same]
        exact present
      · rw [numbersOf_append appended]
        exact List.mem_append_left _ present
  | @deleted id =>
      obtain ⟨record, member, number⟩ := List.mem_map.mp present
      obtain ⟨member, about⟩ := List.mem_filter.mp member
      have about : record.jobId = sent.1 := of_decide_eq_true about
      obtain ⟨row, found⟩ :=
        Option.isSome_iff_exists.mp (invariant.stored record member)
      have other := keeps sent out row (about ▸ found)
      refine List.mem_map.mpr ⟨record, List.mem_filter.mpr ⟨?_, ?_⟩, number⟩
      · refine List.mem_filter.mpr ⟨member, ?_⟩
        simp [found, other]
      · exact decide_eq_true about
  | start | failed | crashed | shutdown | promoted | reaped | ticked
  | registered => exact present

/-- A request that goes out in a step. -/
private theorem sent_of_step
    (taken : WebhookDelivery.step deployment before action = some after) :
    after.sent deployment = before.sent deployment ∨
      ∃ pid request, action.performer? = some pid ∧
        before.pending? pid = some (.fetch request) ∧
        deployment.sends request.url request.eventType = true ∧
        after.sent deployment =
          (request.jobId, request.attempt) :: before.sent deployment ∧
        lastSent deployment (after.own pid) =
          some (request.jobId, request.attempt) := by
  rcases history_of_step taken with ⟨same, _⟩ | ⟨same, _⟩ |
    ⟨pid, choice, call, performs, pending, _, history⟩
  · exact .inl (by rw [State.sent, same, State.sent])
  · exact .inl (by rw [State.sent, same, State.sent])
  · have added : after.sent deployment = (Event.sent? deployment
        ⟨pid, call, (exec deployment choice call before.store).1⟩).toList ++
          before.sent deployment := sent_cons history
    have own := (own_cons history).trans (if_pos rfl)
    cases call with
    | fetch request =>
        cases sendable : deployment.sends request.url
            request.eventType with
        | false =>
            refine .inl (added.trans ?_)
            simp [Event.sent?, sendable]
        | true =>
            refine .inr ⟨pid, request, performs, pending, sendable,
              added.trans ?_, ?_⟩
            · simp [Event.sent?, sendable]
            · rw [own]
              simp [lastSent, Event.sent?, sendable]
    | _ => exact .inl added

/-- A request that goes out has a number that no other request has. -/
private theorem fresh_of_sent (invariant : WindowInvariant deployment before)
    {pid : Pid} {request : DeliveryRequest}
    (pending : before.pending? pid = some (.fetch request))
    (sendable : deployment.sends request.url request.eventType = true)
    (inTurn : (Call.fetch request).InTurn deployment before pid) :
    (request.jobId, request.attempt) ∉ before.sent deployment := by
  intro out
  obtain ⟨alone, since⟩ := inTurn sendable
  rcases invariant.kept _ out with recorded | ⟨other, owes⟩
  · obtain ⟨window, borne, allowed⟩ := invariant.window pending
    cases window with
    | closed => cases allowed
    | numbered jobId number =>
        obtain ⟨rfl, rfl⟩ := allowed
        exact borne.2 since recorded
    | sent jobId number => cases allowed
  · obtain ⟨call, pendingThere⟩ := pending_of_underway owes
    obtain ⟨finishes, last⟩ := finishes_of_underway pendingThere owes
    have distinct : other ≠ pid := by
      rintro rfl
      rw [pending] at pendingThere
      cases pendingThere
      cases finishes
    have acted : ∃ event ∈ before.history, event.pid = other := by
      cases own : before.own other with
      | nil =>
          rw [own] at last
          cases last
      | cons event earlier =>
          have member : event ∈ before.own other :=
            own ▸ List.mem_cons_self
          obtain ⟨member, same⟩ := List.mem_filter.mp member
          exact ⟨event, member, of_decide_eq_true same⟩
    obtain ⟨event, member, rfl⟩ := acted
    exact alone event member distinct _ owes rfl

private theorem kept_of_step (invariant : WindowInvariant deployment before)
    (keeps : KeepsWindows deployment before action)
    (taken : WebhookDelivery.step deployment before action = some after)
    (sent : JobId × Nat) (out : sent ∈ after.sent deployment) :
    sent.2 ∈ after.store.db.numbersOf sent.1 ∨
      ∃ pid, after.underway deployment pid = some sent := by
  have stays : sent ∈ before.sent deployment →
      sent.2 ∈ after.store.db.numbersOf sent.1 ∨
        ∃ pid, after.underway deployment pid = some sent := by
    intro earlier
    rcases invariant.kept sent earlier with recorded | ⟨pid, owes⟩
    · exact .inl (invariant.kept_of_recorded keeps taken earlier recorded)
    · exact (invariant.kept_of_underway keeps taken owes).imp_right
        fun owesNow => ⟨pid, owesNow⟩
  rcases sent_of_step taken with
    same | ⟨pid, request, performs, pending, _, added, last⟩
  · exact stays (same ▸ out)
  · rw [added] at out
    rcases List.mem_cons.mp out with rfl | earlier
    · obtain ⟨call, pendingNow, finishes⟩ :=
        invariant.goes_on taken performs pending rfl (by
          intro window allowed _
          cases window with
          | closed => cases allowed
          | numbered jobId number => exact ⟨jobId, number, fun _ => rfl⟩
          | sent jobId number => cases allowed)
      exact .inr ⟨pid, (underway_of_finishes pendingNow finishes).trans last⟩
    · exact stays earlier

private theorem stored_of_step (invariant : WindowInvariant deployment before)
    (taken : WebhookDelivery.step deployment before action = some after)
    (record : AttemptRecord)
    (member : record ∈ after.store.db.deliveryAttempts) :
    (after.store.db.jobs record.jobId).isSome := by
  cases steps_of_step taken with
  | @performed _ pid choice process call next rescue resumed _ _ _ resumes =>
      have stays : (before.store.db.jobs record.jobId).isSome →
          ((before.perform deployment pid choice call
            resumed).store.db.jobs record.jobId).isSome :=
        row_stays taken (by cases resumes <;> rfl)
      change record ∈ (exec deployment choice call
        before.store).2.db.deliveryAttempts at member
      rcases exec_deliveryAttempts deployment choice call before.store pid with
        ⟨same, _⟩ | ⟨new, rfl, _, appended, _⟩
      · rw [same] at member
        exact stays (invariant.stored record member)
      · have referenced : (before.store.db.jobs new.jobId).isSome := by
          by_contra absent
          have none := Option.not_isSome_iff_eq_none.mp absent
          simp [exec, Postgres.insertAttempt, none, Store.withDb] at appended
        rw [appended] at member
        rcases List.mem_append.mp member with old | new
        · exact stays (invariant.stored record old)
        · rw [List.mem_singleton.mp new] at stays ⊢
          exact stays referenced
  | deleted => exact (List.mem_filter.mp member).2
  | start | failed | crashed | shutdown | promoted | reaped | ticked
  | registered => exact invariant.stored record member

theorem step (invariant : WindowInvariant deployment before)
    (keeps : KeepsWindows deployment before action)
    (taken : WebhookDelivery.step deployment before action = some after) :
    WindowInvariant deployment after where
  trace := invariant.trace.step False.elim taken
  shadowed := invariant.shadowed.step taken
    (Window.shadows invariant.trace keeps taken)
  unique jobId := by
    rcases attempts_of_step taken with
      fewer | ⟨_, record, _, _, unrecorded, appended⟩
    · exact (invariant.unique jobId).sublist (numbersOf_sublist fewer jobId)
    · rw [numbersOf_append appended]
      split
      next same =>
        subst same
        rw [List.nodup_append]
        refine ⟨invariant.unique _, List.nodup_singleton _, ?_⟩
        rintro number present _ new rfl
        rw [List.mem_singleton.mp new] at present
        exact unrecorded present
      · rw [List.append_nil]
        exact invariant.unique jobId
  stored := invariant.stored_of_step taken
  distinct := by
    rcases sent_of_step taken with
      same | ⟨pid, request, performs, pending, sendable, added, _⟩
    · rw [same]
      exact invariant.distinct
    · rw [added]
      exact List.nodup_cons.mpr ⟨invariant.fresh_of_sent pending sendable
        (inTurn_of_keeps keeps performs pending), invariant.distinct⟩
  kept := invariant.kept_of_step keeps taken

end WindowInvariant

theorem requests_of_sentOnce {pid : Pid} {choice : Choice} {call : Call}
    {outcome : Except AppError call.Reply}
    (once : call.SentOnce deployment choice) :
    call.requests deployment choice =
      (Event.sent? deployment ⟨pid, call, outcome⟩).toList := by
  cases call with
  | fetch request =>
      cases sends : deployment.sends request.url request.eventType with
      | false => simp [Call.requests, Event.sent?, sends]
      | true => simp [Call.requests, Event.sent?, sends, once sends]
  | _ => rfl

/-- A step in which `fetch` sends a request at most once puts on the wire what
it adds to the calls. -/
theorem sent_of_requestsIn (once : SendsOnce deployment before action)
    (taken : step deployment before action = some after) :
    after.sent deployment =
      (requestsIn deployment ⟨before, action, after⟩).reverse ++
        before.sent deployment := by
  cases steps_of_step taken with
  | @performed _ pid choice process call next rescue resumed found running
      connected resumes =>
      have pending := State.pending?_of_running found running
      cases resumes with
      | replied =>
          have made : ∀ later, requestsIn deployment
              ⟨before, .call pid choice, later⟩ =
                call.requests deployment choice := by
            intro later
            simp only [requestsIn, pending, Option.map_some, Option.getD_some]
          rw [sent_cons rfl, made,
            requests_of_sentOnce (once call pending)]
          cases Event.sent? deployment ⟨pid, call, (exec deployment choice
            call before.store).1⟩ <;> rfl
      | unanswered onStore =>
          -- A call of `fetch` is not one on a store.
          cases call with
          | fetch request => cases onStore
          | _ =>
              rw [sent_cons rfl]
              rfl
  | start | failed | crashed | shutdown | promoted | reaped | ticked
  | registered | deleted => rfl

theorem sent_of_run {initial final : State} {actions : List Action}
    (runs : run (step deployment) initial actions = some final)
    (once : ∀ transition ∈ transitions (step deployment) initial actions,
      SendsOnce deployment transition.before transition.action) :
    final.sent deployment =
      ((transitions (step deployment) initial actions).flatMap
        (requestsIn deployment)).reverse ++ initial.sent deployment := by
  induction actions generalizing initial with
  | nil =>
      cases runs
      rfl
  | cons action actions ih =>
      obtain ⟨next, taken, rest⟩ := Option.bind_eq_some_iff.mp runs
      rw [transitions_cons taken, List.forall_mem_cons] at once
      rw [transitions_cons taken, List.flatMap_cons, List.reverse_append,
        List.append_assoc, ih rest once.2, sent_of_requestsIn once.1 taken]

/-- In a run in which the windows of two deliveries of a job never overlap, none
is cut short and `fetch` sends each request once, no two requests for a job
carry the same number, and every request gets exactly one row with its
number. -/
theorem numbers_told_apart (deployment : Deployment) (actions : List Action)
    (kept : ∀ transition ∈
      transitions (step deployment) State.initial actions,
        KeepsWindows deployment transition.before transition.action ∧
          SendsOnce deployment transition.before transition.action)
    (final : State)
    (runs : run (step deployment) State.initial actions = some final) :
    NumberedApart deployment (wire deployment actions) final := by
  have windows : WindowInvariant deployment final :=
    (Reachable.of_run runs fun transition member =>
      (kept transition member).1).invariant (WindowInvariant deployment)
        .initial fun _ _ _ invariant keeps taken => invariant.step keeps taken
  have same : final.sent deployment = (wire deployment actions).reverse :=
    (sent_of_run runs fun transition member =>
      (kept transition member).2).trans (List.append_nil _)
  obtain ⟨distinct, recorded⟩ := windows.numberedApart
  rw [same] at distinct recorded
  exact ⟨List.nodup_reverse.mp distinct,
    fun sent out => recorded sent (List.mem_reverse.mpr out)⟩

/-- Worker 1 delivers job 2 twice. -/
def deliveredTwice : List Action :=
  enqueueOne ++ deliverOnce 1 500 9 ++ .promote 0 100 ::
    calls 1 14 ++ .call 1 {} :: calls 1 3

theorem numbers_told_apart_deliveredTwice :
    wire {} deliveredTwice = [(2, 1), (2, 2)] ∧
    ∃ final, run (step {}) State.initial deliveredTwice = some final ∧
      final.store.db.numbersOf 2 = [1, 2] ∧
      NumberedApart {} (wire {} deliveredTwice) final := by
  have evaluated : (run (step {}) State.initial deliveredTwice).map
      (fun state => state.store.db.numbersOf 2) = some [1, 2] := by
    decide +kernel
  obtain ⟨final, runs, recorded⟩ := Option.map_eq_some_iff.mp evaluated
  exact ⟨by decide +kernel, final, runs, recorded,
    numbers_told_apart {} deliveredTwice (by decide +kernel) final runs⟩

/-- Worker 1 crashes after its request has gone out, and worker 2 sends the
next one. -/
def crashedBetween : List Action :=
  enqueueOne ++ .start 1 .worker :: calls 1 15 ++
    [.crash 1, .reap 60000 100, .start 2 .worker] ++ calls 2 15

/-- A request whose row was never inserted leaves its number to the next. -/
theorem number_reused :
    ∃ final, run (step {}) State.initial crashedBetween = some final ∧
      ¬NumberedApart {} (wire {} crashedBetween) final := by
  have evaluated : (run (step {}) State.initial crashedBetween).isSome := by
    decide +kernel
  have sentTwice : wire {} crashedBetween = [(2, 1), (2, 1)] := by
    decide +kernel
  obtain ⟨final, runs⟩ := Option.isSome_iff_exists.mp evaluated
  refine ⟨final, runs, fun apart => ?_⟩
  have distinct := apart.distinct
  rw [sentTwice] at distinct
  exact absurd distinct (by decide)

end WebhookDelivery
