import WebhookDelivery.Library.Requests

/-!
# The polling hook of the dashboard

`usePolling` of `hooks.ts`.  A fetch is what the fetcher asked for when it was
called, and its outcome once that has arrived; nothing limits how many wait
for theirs.
-/

namespace WebhookDelivery

open Concurrency

abbrev Fetch (Query Data : Type) := Request Query String Data

/-- The arguments of the hook; the fetcher is what it asks for. -/
structure PollingArgs (Query Deps : Type) where
  fetcher : Query
  intervalMs : Nat
  enabled : Bool
  deps : Deps

/-- The state of one use of the hook. -/
structure Polling (Query Deps Data : Type) where
  data : Option Data
  error : Option String
  loading : Bool
  savedFetcher : Query
  /-- The arguments for which the effect has last run. -/
  watched : Bool × Nat × Deps
  /-- The interval of the timer, if one is set. -/
  timer : Option Nat
  /-- The fetches in the order of their start. -/
  fetches : List (Fetch Query Data)

variable {Query Deps Data : Type}

def PollingArgs.watched (args : PollingArgs Query Deps) : Bool × Nat × Deps :=
  (args.enabled, args.intervalMs, args.deps)

namespace Polling

variable (polling : Polling Query Deps Data) (args : PollingArgs Query Deps)

/-- `run` up to its `await`. -/
def run : Polling Query Deps Data :=
  { polling with fetches := polling.fetches ++ [⟨polling.savedFetcher, none⟩] }

/-- The effect, after the cleanup of the previous one. -/
def effect : Polling Query Deps Data :=
  { polling.run with
    watched := args.watched
    timer := if args.enabled then some args.intervalMs else none }

/-- The first rendering. -/
def mount (args : PollingArgs Query Deps) : Polling Query Deps Data :=
  effect
    { data := none
      error := none
      loading := true
      savedFetcher := args.fetcher
      watched := args.watched
      timer := none
      fetches := [] }
    args

/-- A rendering; the effect runs again when something it watches has
changed. -/
def render [DecidableEq Deps] : Polling Query Deps Data :=
  let rendered := { polling with savedFetcher := args.fetcher }
  if polling.watched = args.watched then rendered else rendered.effect args

/-- The timer fires. -/
def tick : Option (Polling Query Deps Data) :=
  if polling.timer.isSome then some polling.run else none

/-- `run` from the outcome of its fetch on. -/
def settle : Except String Data → Polling Query Deps Data
  | .ok result =>
      { polling with data := some result, error := none, loading := false }
  | .error message =>
      { polling with error := some message, loading := false }

/-- The outcome of a fetch arrives. -/
def answer (index : Nat) (outcome : Except String Data) :
    Option (Polling Query Deps Data) :=
  match polling.fetches[index]? with
  | some ⟨query, none⟩ =>
      some (settle
        { polling with
          fetches := polling.fetches.set index ⟨query, some outcome⟩ }
        outcome)
  | _ => none

/-- The data shown is the result of the fetch that was started last among
those that have succeeded. -/
def ShowsNewest : Prop :=
  polling.data = newest? polling.fetches

instance [DecidableEq Data] : Decidable polling.ShowsNewest :=
  inferInstanceAs (Decidable (polling.data = newest? polling.fetches))

/-- No fetch that was started later has succeeded before, unless the newest
result is the same data. -/
def InTurn (index : Nat) : Except String Data → Prop
  | .ok result =>
      newest? (polling.fetches.drop (index + 1)) = none ∨
        newest? polling.fetches = some result
  | .error _ => True

/-- What was asked for later stays on display when the outcome of an earlier
fetch arrives. -/
def KeepsLater (answered : Polling Query Deps Data) (index : Nat) : Prop :=
  newest? (polling.fetches.drop (index + 1)) ≠ none →
    answered.data = polling.data

variable {polling args}

@[simp]
theorem showsNewest_run : polling.run.ShowsNewest ↔ polling.ShowsNewest := by
  rw [ShowsNewest, ShowsNewest, run, newest?_started]

@[simp]
theorem showsNewest_effect :
    (polling.effect args).ShowsNewest ↔ polling.ShowsNewest := by
  show polling.data = newest? polling.run.fetches ↔ _
  exact showsNewest_run

theorem showsNewest_mount :
    (mount args : Polling Query Deps Data).ShowsNewest :=
  showsNewest_effect.mpr rfl

@[simp]
theorem showsNewest_render [DecidableEq Deps] :
    (polling.render args).ShowsNewest ↔ polling.ShowsNewest := by
  unfold render
  split
  · rfl
  · exact showsNewest_effect

@[simp]
theorem data_render [DecidableEq Deps] :
    (polling.render args).data = polling.data := by
  unfold render
  split <;> rfl

theorem showsNewest_tick {ticked : Polling Query Deps Data}
    (fires : polling.tick = some ticked) :
    ticked.ShowsNewest ↔ polling.ShowsNewest := by
  obtain ⟨-, ran⟩ := Option.ite_none_right_eq_some.mp fires
  cases ran
  exact showsNewest_run

theorem waiting_of_answer {index : Nat} {outcome : Except String Data}
    {answered : Polling Query Deps Data}
    (arrives : polling.answer index outcome = some answered) :
    ∃ query, polling.fetches[index]? = some ⟨query, none⟩ ∧
      answered = settle
        { polling with
          fetches := polling.fetches.set index ⟨query, some outcome⟩ }
        outcome := by
  unfold answer at arrives
  split at arrives
  next query waiting => exact ⟨query, waiting, (Option.some.inj arrives).symm⟩
  · cases arrives

/-- The newest data stays on display exactly when the outcome of a fetch
arrives in turn. -/
theorem showsNewest_answer_iff {index : Nat} {outcome : Except String Data}
    {answered : Polling Query Deps Data} (shows : polling.ShowsNewest)
    (arrives : polling.answer index outcome = some answered) :
    answered.ShowsNewest ↔ polling.InTurn index outcome := by
  obtain ⟨query, waiting, rfl⟩ := waiting_of_answer arrives
  cases outcome with
  | error message =>
      exact iff_of_true (shows.trans (newest?_failed waiting).symm) trivial
  | ok result =>
      simp only [ShowsNewest, InTurn, settle, newest?_succeeded waiting]
      cases overtaken : newest? (polling.fetches.drop (index + 1)) with
      | none => simp
      | some later =>
          rw [newest?_of_later waiting overtaken]
          simp [eq_comm]

/-- A response that arrives in turn replaces nothing that was asked for
later. -/
theorem keepsLater_of_inTurn {index : Nat} {outcome : Except String Data}
    {answered : Polling Query Deps Data} (shows : polling.ShowsNewest)
    (arrives : polling.answer index outcome = some answered)
    (inTurn : polling.InTurn index outcome) :
    polling.KeepsLater answered index := by
  intro brought
  obtain ⟨later, overtaken⟩ := Option.ne_none_iff_exists'.mp brought
  obtain ⟨query, waiting, same⟩ := waiting_of_answer arrives
  have newest := newest?_of_later waiting overtaken
  have shown := (showsNewest_answer_iff shows arrives).mpr inTurn
  rw [ShowsNewest] at shows shown
  rw [shown, shows, newest, same]
  cases outcome with
  | error message => exact (newest?_failed waiting).trans newest
  | ok result =>
      exact (newest?_succeeded waiting).trans (by rw [overtaken]; rfl)

end Polling

end WebhookDelivery
