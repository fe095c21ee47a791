import WebhookDelivery.Passes
import WebhookDelivery.ServiceOrder
import WebhookDelivery.Library.Counting

/-!
# Requests and hand-outs

Delivery is at least once: a job may be sent more than once.  How often is
bounded by how often its id was put on `ready`, since every request uses up
one hand-out of the job and every hand-out one of its places in the line.
-/

namespace WebhookDelivery

open Concurrency

variable {deployment : Deployment} {before after : State} {action : Action}

/-- A job that is sent out. -/
def Entry.sent? : Entry → Option JobId
  | ⟨.fetch request, _⟩ => some request.jobId
  | _ => none

/-- A job that a worker has taken from `ready`. -/
def Entry.popped? : Entry → Option JobId
  | ⟨.brpoplpush, .ok (some jobId)⟩ => some jobId
  | _ => none

theorem Entry.popped?_entry (event : Event) :
    Entry.popped? event.entry = event.popped? := by
  rcases event with ⟨pid, call, outcome⟩
  cases call with
  | brpoplpush => rcases outcome with _ | _ | _ <;> rfl
  | _ => rfl

/-- The entries about a job. -/
def about (what : Entry → Option JobId) (jobId : JobId) (log : List Entry) :
    Nat :=
  log.countP fun entry => decide (what entry = some jobId)

theorem about_cons (what : Entry → Option JobId) (jobId : JobId)
    (entry : Entry) (log : List Entry) :
    about what jobId (entry :: log) = about what jobId log +
      if what entry = some jobId then 1 else 0 := by
  simp only [about, List.countP_cons, decide_eq_true_eq]

theorem about_append (what : Entry → Option JobId) (jobId : JobId)
    (first second : List Entry) :
    about what jobId (first ++ second) =
      about what jobId first + about what jobId second :=
  List.countP_append

/-- A pass sends nothing before its request. -/
theorem Pass.sent_calls (pass : Pass) (jobId : JobId) :
    about Entry.sent? jobId (pass.calls deployment) = 0 := by
  simp [about, Pass.calls, preparing, taking, checking, reserving,
    Entry.sent?]

/-- A pass takes its job from `ready`. -/
theorem Pass.popped_calls (pass : Pass) (jobId : JobId) :
    about Entry.popped? jobId (pass.calls deployment) =
      if pass.jobId = jobId then 1 else 0 := by
  simp [about, Pass.calls, preparing, taking, checking, reserving,
    Entry.popped?, List.countP_cons]

/-- Every request of a process uses up one hand-out of its job. -/
theorem sent_le_popped {log : List Entry}
    (kept : Kept (Guarded deployment) log) (jobId : JobId) :
    about Entry.sent? jobId log ≤ about Entry.popped? jobId log := by
  induction size : log.length using Nat.strongRecOn generalizing log with
  | ind length ih =>
      cases log with
      | nil => exact le_rfl
      | cons entry log =>
          subst size
          have rest := ih _ (Nat.lt_succ_self _) kept.tail rfl
          rw [about_cons, about_cons]
          by_cases sends : Entry.sent? entry = some jobId
          · obtain ⟨call, outcome⟩ := entry
            cases call with
            | fetch request =>
                obtain ⟨pass, cleared, rfl, earlier, rfl⟩ := kept.head
                have own : pass.jobId = jobId :=
                  cleared.own.symm.trans (Option.some.inj sends)
                have before := ih earlier.length (by
                  simp only [List.length_cons, List.length_append]
                  omega) kept.tail.of_append rfl
                simp only [about_append, pass.sent_calls, pass.popped_calls,
                  own, if_true, sends]
                omega
            | _ => cases sends
          · simp only [sends, if_false]
            omega

/-- The requests for a job. -/
def State.requestsFor (state : State) (jobId : JobId) : Nat :=
  about Entry.sent? jobId (state.history.map Event.entry)

/-- The times a job was handed to a worker. -/
def State.handOutsOf (state : State) (jobId : JobId) : Nat :=
  about Entry.popped? jobId (state.history.map Event.entry)

/-- No more requests than hand-outs, over all processes. -/
theorem PassInvariant.requests_le_handOuts {state : State}
    (invariant : PassInvariant deployment state) (jobId : JobId) :
    state.requestsFor jobId ≤ state.handOutsOf jobId := by
  simp only [State.requestsFor, State.handOutsOf, about, List.countP_map]
  refine Counting.countP_le_of_groups Event.pid _ _ state.history
    fun pid => ?_
  have own := sent_le_popped (invariant.kept pid) jobId
  simp only [State.log, about, List.countP_map] at own
  exact own

/-- What a run hands out is what its history says. -/
theorem handedOut_of_events (steps : List (Transition State Action)) :
    steps.flatMap handedOut =
      (steps.filterMap eventOf).filterMap Event.popped? := by
  induction steps with
  | nil => rfl
  | cons first steps ih =>
      rw [List.flatMap_cons, ih, handedOut]
      cases happens : eventOf first with
      | none => simp [happens]
      | some event => cases pops : event.popped? <;> simp [happens, pops]

theorem handOutsOf_eq {actions : List Action}
    (runs : run (step deployment) State.initial actions = some after)
    (jobId : JobId) :
    after.handOutsOf jobId =
      ((transitions (step deployment) State.initial actions).flatMap
        handedOut).count jobId := by
  have history := history_of_run runs
  rw [show State.initial.history = [] from rfl, List.append_nil] at history
  rw [State.handOutsOf, about, List.countP_map, history, List.countP_reverse,
    handedOut_of_events]
  generalize (transitions (step deployment) State.initial actions).filterMap
    eventOf = events
  rw [List.count_eq_countP, List.countP_filterMap]
  refine List.countP_congr fun event _ => ?_
  simp only [Function.comp_apply, Entry.popped?_entry, decide_eq_true_eq]
  cases event.popped? <;> simp

/-- In every run, whatever has failed: when a process sends a request, the
calls it has made right before are those of one pass that was let through
everywhere, and the request is made of what it was told there. -/
theorem requests_end_passes {actions : List Action}
    (runs : run (step deployment) State.initial actions = some after)
    {pid : Pid} {later earlier : List Event} {event : Event}
    {request : DeliveryRequest} (sends : event.call = .fetch request)
    (place : after.own pid = later ++ event :: earlier) :
    Passed deployment request (earlier.map Event.entry) := by
  have guarded := (PassInvariant.of_run runs).kept pid
    (later.map Event.entry) event.entry (earlier.map Event.entry)
    (by rw [State.log, place, List.map_append, List.map_cons])
  have asked : event.entry.request = .fetch request := sends
  rw [asked] at guarded
  exact guarded

/-- Worker 1 crashes while its request is out; the reaper returns the job, and
worker 2 sends it again. -/
def sentTwice : List Action :=
  enqueueOne ++ .start 1 .worker :: calls 1 15 ++ [.crash 1, .reap 60000 100] ++
    deliverOnce 2 200 0

theorem requests_end_passes_sentTwice :
    ∃ after event request earlier,
      run (step {}) State.initial sentTwice = some after ∧
        event.call = .fetch request ∧ after.own 2 = event :: earlier ∧
          Passed {} request (earlier.map Event.entry) := by
  have evaluated : (run (step {}) State.initial sentTwice).map
      (fun state => ((state.own 2).head?.bind Event.request?).isSome) =
        some true := by decide +kernel
  obtain ⟨after, runs, sends⟩ := Option.map_eq_some_iff.mp evaluated
  obtain ⟨request, sends⟩ := Option.isSome_iff_exists.mp sends
  obtain ⟨event, latest, asks⟩ := Option.bind_eq_some_iff.mp sends
  obtain ⟨earlier, own⟩ := List.head?_eq_some_iff.mp latest
  have asked := Event.call_of_request? asks
  exact ⟨after, event, request, earlier, runs, asked, own,
    requests_end_passes runs asked (own.trans (List.nil_append _).symm)⟩

/-- In every run, whatever fails, a job is sent no more often than it is handed
to a worker, and handed out as often as it was put on `ready`, less the copies
still waiting there: by the request that created it, by promotions, by the
reaper and by replays. -/
theorem requests_bounded {actions : List Action}
    (runs : run (step deployment) State.initial actions = some after)
    (jobId : JobId) :
    after.requestsFor jobId ≤ after.handOutsOf jobId ∧
      after.handOutsOf jobId + after.store.redis.ready.count jobId =
        ((transitions (step deployment) State.initial actions).flatMap
          readied).count jobId := by
  refine ⟨(PassInvariant.of_run runs).requests_le_handOuts jobId, ?_⟩
  have order : [] ++ (transitions (step deployment) State.initial
      actions).flatMap readied = (transitions (step deployment) State.initial
        actions).flatMap handedOut ++ after.store.redis.ready.reverse :=
    (readyLine deployment).balance runs
  rw [List.nil_append] at order
  rw [handOutsOf_eq runs, order, List.count_append, List.count_reverse]

theorem requests_bounded_sentTwice :
    ∃ after, run (step {}) State.initial sentTwice = some after ∧
      after.requestsFor 2 = 2 ∧ after.requestsFor 2 ≤ after.handOutsOf 2 ∧
        after.handOutsOf 2 + after.store.redis.ready.count 2 =
          ((transitions (step {}) State.initial sentTwice).flatMap
            readied).count 2 := by
  have evaluated : (run (step {}) State.initial sentTwice).map
      (fun state => state.requestsFor 2) = some 2 := by decide +kernel
  obtain ⟨after, runs, twice⟩ := Option.map_eq_some_iff.mp evaluated
  exact ⟨after, runs, twice, requests_bounded runs 2⟩

end WebhookDelivery
