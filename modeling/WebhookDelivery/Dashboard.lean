import WebhookDelivery.Polling
import WebhookDelivery.Types
import WebhookDelivery.Library.Run

/-!
# The dashboard

`App.tsx` uses the polling hook three times and renders all three uses after
every change of its own state or of theirs.  What is shown is compared with the
newest fetch that has succeeded, over all orders of timers, clicks and
responses.
-/

namespace WebhookDelivery

open Concurrency

/-- The body of `GET /queue/stats`. -/
structure QueueStats where
  ready : Nat
  inflight : Nat
  delayed : Nat
  dlq : Nat
  deriving DecidableEq

/-- The body of `GET /jobs` and of `GET /queue/dlq`. -/
structure JobPage where
  jobs : List Job
  count : Nat
  deriving DecidableEq

/-- The parameters of `api.listJobs`. -/
structure ListJobs where
  tenant : String
  state : Option JobState
  limit : Nat
  deriving DecidableEq

namespace Dashboard

def refreshMs : Nat := 2000

inductive Tab
  | jobs
  | dlq
  deriving DecidableEq

/-- The state of `App` that its hooks depend on; no state filter is `all`. -/
structure App where
  tenant : String := "acme"
  live : Bool := true
  tab : Tab := .jobs
  stateFilter : Option JobState := none
  deriving DecidableEq

namespace App

variable (app : App)

def statsArgs : PollingArgs Unit Unit where
  fetcher := ()
  intervalMs := refreshMs
  enabled := app.live
  deps := ()

def jobsArgs : PollingArgs ListJobs (String × Option JobState) where
  fetcher := ⟨app.tenant, app.stateFilter, 100⟩
  intervalMs := refreshMs
  enabled := app.live
  deps := (app.tenant, app.stateFilter)

/-- The fetcher of the dead-letter queue asks for its limit. -/
def dlqArgs : PollingArgs Nat Unit where
  fetcher := 200
  intervalMs := refreshMs
  enabled := app.live && app.tab = .dlq
  deps := ()

end App

structure State where
  app : App
  stats : Polling Unit Unit QueueStats
  jobs : Polling ListJobs (String × Option JobState) JobPage
  dlq : Polling Nat Unit JobPage

inductive Action
  /-- `StrictMode` runs the effects again. -/
  | remount
  | setTenant (tenant : String)
  | toggleLive
  | setTab (tab : Tab)
  | setStateFilter (filter : Option JobState)
  /-- `onEnqueued` of the panel that sends events. -/
  | enqueued
  /-- `onReplayed` of the dead-letter panel. -/
  | replayed
  | tickStats
  | tickJobs
  | tickDlq
  | answerStats (index : Nat) (outcome : Except String QueueStats)
  | answerJobs (index : Nat) (outcome : Except String JobPage)
  | answerDlq (index : Nat) (outcome : Except String JobPage)

namespace State

def mounted : State where
  app := {}
  stats := .mount (App.statsArgs {})
  jobs := .mount (App.jobsArgs {})
  dlq := .mount (App.dlqArgs {})

def render (state : State) : State :=
  { state with
    stats := state.stats.render state.app.statsArgs
    jobs := state.jobs.render state.app.jobsArgs
    dlq := state.dlq.render state.app.dlqArgs }

/-- A change of the state of `App`. -/
def setApp (state : State) (app : App) : State :=
  render { state with app := app }

/-- Everything that is shown comes from the newest fetch that has succeeded. -/
structure ShowsNewest (state : State) : Prop where
  stats : state.stats.ShowsNewest
  jobs : state.jobs.ShowsNewest
  dlq : state.dlq.ShowsNewest

instance (state : State) : Decidable state.ShowsNewest :=
  decidable_of_iff (state.stats.ShowsNewest ∧ state.jobs.ShowsNewest ∧
      state.dlq.ShowsNewest)
    ⟨fun shows => ⟨shows.1, shows.2.1, shows.2.2⟩,
      fun shows => ⟨shows.stats, shows.jobs, shows.dlq⟩⟩

/-- The response that arrives, if one does, arrives in turn. -/
def InTurn (state : State) : Action → Prop
  | .answerStats index outcome => state.stats.InTurn index outcome
  | .answerJobs index outcome => state.jobs.InTurn index outcome
  | .answerDlq index outcome => state.dlq.InTurn index outcome
  | _ => True

/-- The response that arrives, if one does, leaves on display what was asked
for later. -/
def KeepsLater (before after : State) : Action → Prop
  | .answerStats index _ => before.stats.KeepsLater after.stats index
  | .answerJobs index _ => before.jobs.KeepsLater after.jobs index
  | .answerDlq index _ => before.dlq.KeepsLater after.dlq index
  | _ => True

end State

/-- The step function; `none` when the action is not enabled. -/
def step (state : State) : Action → Option State
  | .remount =>
      some { state with
        stats := state.stats.effect state.app.statsArgs
        jobs := state.jobs.effect state.app.jobsArgs
        dlq := state.dlq.effect state.app.dlqArgs }
  | .setTenant tenant =>
      some (state.setApp { state.app with tenant := tenant })
  | .toggleLive =>
      some (state.setApp { state.app with live := !state.app.live })
  | .setTab tab => some (state.setApp { state.app with tab := tab })
  | .setStateFilter filter =>
      some (state.setApp { state.app with stateFilter := filter })
  | .enqueued =>
      some { state with jobs := state.jobs.run, stats := state.stats.run }
  | .replayed =>
      some { state with
        dlq := state.dlq.run
        stats := state.stats.run
        jobs := state.jobs.run }
  | .tickStats =>
      state.stats.tick.map fun stats => { state with stats := stats }
  | .tickJobs => state.jobs.tick.map fun jobs => { state with jobs := jobs }
  | .tickDlq => state.dlq.tick.map fun dlq => { state with dlq := dlq }
  | .answerStats index outcome =>
      (state.stats.answer index outcome).map fun stats =>
        State.render { state with stats := stats }
  | .answerJobs index outcome =>
      (state.jobs.answer index outcome).map fun jobs =>
        State.render { state with jobs := jobs }
  | .answerDlq index outcome =>
      (state.dlq.answer index outcome).map fun dlq =>
        State.render { state with dlq := dlq }

namespace State

variable {before after : State} {action : Action}

theorem showsNewest_mounted : mounted.ShowsNewest where
  stats := Polling.showsNewest_mount
  jobs := Polling.showsNewest_mount
  dlq := Polling.showsNewest_mount

/-- Rendering shows nothing else. -/
@[simp]
theorem showsNewest_render (state : State) :
    state.render.ShowsNewest ↔ state.ShowsNewest := by
  constructor
  · rintro ⟨stats, jobs, dlq⟩
    exact ⟨Polling.showsNewest_render.mp stats,
      Polling.showsNewest_render.mp jobs, Polling.showsNewest_render.mp dlq⟩
  · rintro ⟨stats, jobs, dlq⟩
    exact ⟨Polling.showsNewest_render.mpr stats,
      Polling.showsNewest_render.mpr jobs, Polling.showsNewest_render.mpr dlq⟩

theorem showsNewest_setApp (state : State) (app : App) :
    (state.setApp app).ShowsNewest ↔ state.ShowsNewest := by
  rw [setApp, showsNewest_render]
  exact ⟨fun ⟨stats, jobs, dlq⟩ => ⟨stats, jobs, dlq⟩,
    fun ⟨stats, jobs, dlq⟩ => ⟨stats, jobs, dlq⟩⟩

/-- After one step the newest data is shown exactly when no response has
arrived out of turn. -/
theorem showsNewest_step_iff (shows : before.ShowsNewest)
    (taken : step before action = some after) :
    after.ShowsNewest ↔ before.InTurn action := by
  have kept := shows
  obtain ⟨stats, jobs, dlq⟩ := shows
  cases action with
  | remount =>
      cases taken
      exact iff_of_true ⟨Polling.showsNewest_effect.mpr stats,
        Polling.showsNewest_effect.mpr jobs,
        Polling.showsNewest_effect.mpr dlq⟩ trivial
  | setTenant _ | toggleLive | setTab _ | setStateFilter _ =>
      cases taken
      exact iff_of_true ((showsNewest_setApp _ _).mpr kept) trivial
  | enqueued =>
      cases taken
      exact iff_of_true ⟨Polling.showsNewest_run.mpr stats,
        Polling.showsNewest_run.mpr jobs, dlq⟩ trivial
  | replayed =>
      cases taken
      exact iff_of_true ⟨Polling.showsNewest_run.mpr stats,
        Polling.showsNewest_run.mpr jobs, Polling.showsNewest_run.mpr dlq⟩
        trivial
  | tickStats =>
      obtain ⟨ticked, fires, rfl⟩ := Option.map_eq_some_iff.mp taken
      exact iff_of_true ⟨(Polling.showsNewest_tick fires).mpr stats, jobs, dlq⟩
        trivial
  | tickJobs =>
      obtain ⟨ticked, fires, rfl⟩ := Option.map_eq_some_iff.mp taken
      exact iff_of_true ⟨stats, (Polling.showsNewest_tick fires).mpr jobs, dlq⟩
        trivial
  | tickDlq =>
      obtain ⟨ticked, fires, rfl⟩ := Option.map_eq_some_iff.mp taken
      exact iff_of_true ⟨stats, jobs, (Polling.showsNewest_tick fires).mpr dlq⟩
        trivial
  | answerStats index outcome =>
      obtain ⟨answered, arrives, rfl⟩ := Option.map_eq_some_iff.mp taken
      rw [showsNewest_render]
      exact Iff.trans ⟨ShowsNewest.stats, fun shows => ⟨shows, jobs, dlq⟩⟩
        (Polling.showsNewest_answer_iff stats arrives)
  | answerJobs index outcome =>
      obtain ⟨answered, arrives, rfl⟩ := Option.map_eq_some_iff.mp taken
      rw [showsNewest_render]
      exact Iff.trans ⟨ShowsNewest.jobs, fun shows => ⟨stats, shows, dlq⟩⟩
        (Polling.showsNewest_answer_iff jobs arrives)
  | answerDlq index outcome =>
      obtain ⟨answered, arrives, rfl⟩ := Option.map_eq_some_iff.mp taken
      rw [showsNewest_render]
      exact Iff.trans ⟨ShowsNewest.dlq, fun shows => ⟨stats, jobs, shows⟩⟩
        (Polling.showsNewest_answer_iff dlq arrives)

theorem keepsLater_of_inTurn (shows : before.ShowsNewest)
    (inTurn : before.InTurn action) (taken : step before action = some after) :
    before.KeepsLater after action := by
  cases action with
  | answerStats index outcome =>
      obtain ⟨answered, arrives, rfl⟩ := Option.map_eq_some_iff.mp taken
      intro overtaken
      rw [render, Polling.data_render]
      exact Polling.keepsLater_of_inTurn shows.stats arrives inTurn overtaken
  | answerJobs index outcome =>
      obtain ⟨answered, arrives, rfl⟩ := Option.map_eq_some_iff.mp taken
      intro overtaken
      rw [render, Polling.data_render]
      exact Polling.keepsLater_of_inTurn shows.jobs arrives inTurn overtaken
  | answerDlq index outcome =>
      obtain ⟨answered, arrives, rfl⟩ := Option.map_eq_some_iff.mp taken
      intro overtaken
      rw [render, Polling.data_render]
      exact Polling.keepsLater_of_inTurn shows.dlq arrives inTurn overtaken
  | _ => trivial

end State

/-- The dashboard shows the newest data at every moment of a run if and only if
every response arrives in turn.  In such a run no late response replaces data
that was asked for later. -/
theorem newest_shown_iff_in_turn (actions : List Action) :
    ((State.mounted.ShowsNewest ∧
        ∀ transition ∈ transitions step State.mounted actions,
          transition.after.ShowsNewest) ↔
      ∀ transition ∈ transitions step State.mounted actions,
        transition.before.InTurn transition.action) ∧
    ((∀ transition ∈ transitions step State.mounted actions,
        transition.before.InTurn transition.action) →
      ∀ transition ∈ transitions step State.mounted actions,
        transition.before.KeepsLater transition.after transition.action) := by
  have steps : (∀ transition ∈ transitions step State.mounted actions,
      transition.after.ShowsNewest) ↔
        ∀ transition ∈ transitions step State.mounted actions,
          transition.before.InTurn transition.action := by
    refine transitions_good_iff_exact State.ShowsNewest (fun _ _ => True)
      State.InTurn (fun _ _ after => after.ShowsNewest) ?_ ?_
      State.showsNewest_mounted (fun _ _ => trivial)
    · intro before action after shows _ inTurn taken
      have kept := (State.showsNewest_step_iff shows taken).mpr inTurn
      exact ⟨kept, kept⟩
    · intro before action after shows _ taken kept
      exact (State.showsNewest_step_iff shows taken).mp kept
  refine ⟨⟨fun shows => steps.mp shows.2,
    fun inTurn => ⟨State.showsNewest_mounted, steps.mpr inTurn⟩⟩, ?_⟩
  intro inTurn transition member
  have shows := (invariant_of_transitions State.ShowsNewest
    (fun _ _ _ shows inTurn taken =>
      (State.showsNewest_step_iff shows taken).mpr inTurn)
    State.showsNewest_mounted inTurn transition member).1
  exact State.keepsLater_of_inTurn shows (inTurn transition member)
    (step_of_mem_transitions member)

/-- A listing with one job of a tenant. -/
def pageOf (tenant : String) : JobPage where
  jobs :=
    [{ id := 1, tenant := tenant, webhookId := 1, eventType := "order.created"
       payload := "\x7b\x7d", state := .queued, attempts := 0, maxAttempts := 5
       runAt := 0, lastError := none, createdAt := 0 }]
  count := 1

/-- The first fetch fails after the one for the new tenant has succeeded. -/
def lateFailure : List Action :=
  [.setTenant "beta", .answerJobs 1 (.ok (pageOf "beta")),
    .answerJobs 0 (.error "timeout")]

theorem newest_shown_iff_in_turn_lateFailure :
    (run step State.mounted lateFailure).map (fun state =>
        state.jobs.data) = some (some (pageOf "beta")) ∧
      ∀ transition ∈ transitions step State.mounted lateFailure,
        transition.before.KeepsLater transition.after transition.action :=
  ⟨by decide +kernel, (newest_shown_iff_in_turn lateFailure).2
    ((newest_shown_iff_in_turn lateFailure).1.mp (by decide +kernel))⟩

/-- The tenant is changed while the first fetch is under way, and the two
responses arrive in the other order. -/
def lateResponse : List Action :=
  [.setTenant "beta", .answerJobs 1 (.ok (pageOf "beta")),
    .answerJobs 0 (.ok (pageOf "acme"))]

/-- The jobs of the previous tenant replace those of the present one. -/
theorem late_response_shown :
    (run step State.mounted lateResponse).map (fun state =>
        (state.app.tenant, state.jobs.data, newest? state.jobs.fetches)) =
      some ("beta", some (pageOf "acme"), some (pageOf "beta")) ∧
    ¬∀ actions, State.mounted.ShowsNewest ∧
      ∀ transition ∈ transitions step State.mounted actions,
        transition.after.ShowsNewest :=
  ⟨by decide +kernel,
    fun shows => absurd (shows lateResponse).2 (by decide +kernel)⟩

end Dashboard

end WebhookDelivery
