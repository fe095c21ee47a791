import WebhookDelivery.Pacing
import WebhookDelivery.AuditTrail

/-!
# What the deletion of a webhook stops

A webhook may be deleted while any number of workers are on their way to it.
A worker that has not read the secret by then cannot send any more, since the
row does not come back; one that has sends the request it is about to send.
-/

namespace WebhookDelivery

open Concurrency

variable {deployment : Deployment} {before after : State} {action : Action}
  {webhookId : WebhookId}

/-! ## Workers that know the secret -/

/-- Whether a process has the secret of the webhook in hand after a call, where
the call decides it. -/
def Entry.signs? (webhookId : WebhookId) : Entry → Option Bool
  | ⟨.findSecret id, .ok (some _)⟩ => if id = webhookId then some true else none
  | ⟨.fetch _, _⟩ | ⟨.brpoplpush, _⟩ => some false
  | _ => none

/-- The secret of the webhook, as workers have it in hand. -/
abbrev secrets (webhookId : WebhookId) : Permits.Scheme Event Pid :=
  permits (Entry.signs? webhookId)

theorem Pass.signing_calls (pass : Pass) (_ : pass.Cleared)
    (earlier : List Entry) :
    Permits.holding (Entry.signs? pass.job.webhookId)
      (pass.calls deployment ++ earlier) = true := by
  simp [Permits.holding, calls, preparing, Entry.signs?]

/-! ## Deleted webhooks -/

/-- The webhook has been registered, and its row is gone. -/
structure State.Unregistered (state : State) (webhookId : WebhookId) :
    Prop where
  known : webhookId ∈ state.store.db.issued
  gone : state.store.db.webhooks webhookId = none

/-- A webhook that is gone stays so. -/
theorem State.Unregistered.stays
    (unregistered : before.Unregistered webhookId)
    (taken : step deployment before action = some after) :
    after.Unregistered webhookId where
  known := Provenance.issued_of_step taken unregistered.known
  gone := by
    have gone := unregistered.gone
    cases steps_of_step taken with
    | performed =>
        rw [State.perform_store, exec_webhooks]
        exact gone
    | @registered row unused =>
        have other : webhookId ≠ row.id := by
          rintro rfl
          exact unused unregistered.known
        exact (Function.update_of_ne other ..).trans gone
    | @deleted id =>
        by_cases same : webhookId = id
        · subst same
          exact Function.update_self ..
        · exact (Function.update_of_ne same ..).trans gone
    | start | failed | crashed | shutdown | promoted | reaped | ticked =>
        exact gone

/-- Nobody is given the secret of a webhook that is gone. -/
theorem signs?_of_unregistered {store : Store} {choice : Choice} {call : Call}
    (gone : store.db.webhooks webhookId = none) :
    Entry.signs? webhookId ⟨call, (exec deployment choice call store).1⟩ ≠
      some true := by
  cases call with
  | findSecret id =>
      by_cases same : id = webhookId
      · subst same
        simp [exec, gone, Entry.signs?]
      · cases found : store.db.webhooks id with
        | none => simp [exec, found, Entry.signs?]
        | some row => simp [exec, found, Entry.signs?, same]
  | _ => simp [Entry.signs?]

theorem State.Unregistered.step
    (unregistered : before.Unregistered webhookId)
    (taken : step deployment before action = some after) :
    ∃ window, after.history = window ++ before.history ∧
      after.Unregistered webhookId ∧
        (secrets webhookId).granted window = 0 := by
  have still := unregistered.stays taken
  rcases history_of_step taken with ⟨same, _⟩ | ⟨same, _⟩ |
    ⟨pid, choice, call, _, _, _, same⟩
  · exact ⟨[], same, still, rfl⟩
  · exact ⟨[], same, still, rfl⟩
  · refine ⟨[_], same, still, ?_⟩
    rw [Permits.Scheme.granted, List.countP_eq_zero]
    intro event member grants
    cases List.mem_singleton.mp member
    exact signs?_of_unregistered unregistered.gone (of_decide_eq_true grants)

/-- Once a webhook has been deleted, in every continuation of the run: a worker
that had read its secret by then sends at most one more request to it, and
every other worker sends none. -/
theorem unsent_after_deletion {first second : List Action}
    (starts : run (step deployment) State.initial first = some before)
    (unregistered : before.Unregistered webhookId)
    (runs : run (step deployment) before second = some after) (worker : Pid) :
    sentTo webhookId worker after.history ≤
      sentTo webhookId worker before.history +
        if Permits.holding (Entry.signs? webhookId) (before.log worker) = true
          then 1 else 0 := by
  obtain ⟨window, grows, free⟩ := (secrets webhookId).ungranted_of_run
    (fun state => state.Unregistered webhookId)
    (fun kept (_ : True) taken => kept.step taken) unregistered runs
    (fun _ _ => trivial)
  have whole : run (step deployment) State.initial (first ++ second) =
      some after := (run_append starts second).trans runs
  exact sentTo_le grows (paid_of_run whole Pass.signing_calls
    (fun _ _ _ => rfl) webhookId) free worker

/-- Worker 1 has read the secret when the webhook is deleted, worker 2 has not
got so far. -/
def deletedUnderway : List Action :=
  enqueueOne ++ [.start 5 (.enqueue exampleEvent), .call 5 {},
    .call 5 { uuid := 3 }] ++ calls 5 2 ++ .start 2 .worker :: calls 2 8 ++
      .start 1 .worker :: calls 1 11 ++ [.deleteWebhook 1]

theorem unsent_after_deletion_deletedUnderway :
    ∃ before after,
      run (step {}) State.initial deletedUnderway = some before ∧
        run (step {}) before (calls 1 4 ++ calls 2 8) = some after ∧
          sentTo 1 1 after.history = 1 ∧ sentTo 1 2 after.history = 0 ∧
            sentTo 1 1 after.history ≤ sentTo 1 1 before.history +
              if Permits.holding (Entry.signs? 1) (before.log 1) = true
                then 1 else 0 := by
  have evaluated : (run (step {}) State.initial deletedUnderway).map
      (fun before => (decide (1 ∈ before.store.db.issued),
        before.store.db.webhooks 1,
        (run (step {}) before (calls 1 4 ++ calls 2 8)).map fun after =>
          (sentTo 1 1 after.history, sentTo 1 2 after.history))) =
        some (true, none, some (1, 0)) := by decide +kernel
  obtain ⟨before, starts, found⟩ := Option.map_eq_some_iff.mp evaluated
  simp only [Prod.mk.injEq, decide_eq_true_eq] at found
  obtain ⟨known, gone, ends⟩ := found
  obtain ⟨after, runs, sent⟩ := Option.map_eq_some_iff.mp ends
  obtain ⟨one, none⟩ := Prod.mk.inj sent
  exact ⟨before, after, starts, runs, one, none,
    unsent_after_deletion starts ⟨known, gone⟩ runs 1⟩

end WebhookDelivery
