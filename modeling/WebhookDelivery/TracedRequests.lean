import WebhookDelivery.Traces

/-!
# The order of calls of a request

`enqueue` checks the webhook, reserves the slot, inserts the row, places the
id and resolves the slot, in this order; it releases the slot when it fails
before that.
-/

namespace WebhookDelivery

open Concurrency Program Discipline

/-! ## How far a request has come -/

/-- The first call of a request has not got anywhere yet. -/
structure Untried (own : List Event) : Prop where
  unasked : ∀ key, ¬did own Event.asked? key
  uninserted : ∀ job, ¬did own Event.inserted? job
  unreleased : ∀ key, ¬did own Event.released? key
  unresolved : ∀ slot, ¬did own Event.resolved? slot

/-- The request has checked its webhook and not yet inserted its row. -/
structure Uncreated (input : EnqueueInput) (own : List Event) : Prop where
  owned : Owned input own
  uninserted : ∀ job, ¬did own Event.inserted? job
  unreleased : ∀ key, ¬did own Event.released? key
  unresolved : ∀ slot, ¬did own Event.resolved? slot

/-- The request has inserted its row and not yet resolved its slot. -/
structure Created (input : EnqueueInput) (job : Job) (own : List Event) :
    Prop where
  entitled : Entitled input own
  inserted : did own Event.inserted? job
  unreleased : ∀ key, ¬did own Event.released? key
  unresolved : ∀ slot, ¬did own Event.resolved? slot

/-- The request may release its slot. -/
structure Releasable (input : EnqueueInput) (own : List Event) : Prop where
  entitled : Entitled input own
  unreleased : ∀ key, ¬did own Event.released? key

/-- How a job comes to be the answer to a request: it has been inserted and
placed, and the slot resolved to it, or the slot was resolved to it before. -/
def Answered (input : EnqueueInput) (job : Job) (own : List Event) : Prop :=
  (did own Event.inserted? job ∧ did own Event.placed? job.id ∧
      ∀ key, slotName input = some key →
        did own Event.resolved? (key, job.id)) ∨
    ∃ key, slotName input = some key ∧
      did own Event.slotRead? (key, job.id) ∧ did own Event.found? job

section

variable {input : EnqueueInput} {own : List Event}
  {event : Event}

theorem Owned.cons (owned : Owned input own) :
    Owned input (event :: own) := by
  obtain ⟨webhook, found, same⟩ := owned
  exact ⟨webhook, (did_cons ..).mpr (.inr found), same⟩

theorem Entitled.cons (entitled : Entitled input own) :
    Entitled input (event :: own) := by
  intro key slot
  rcases entitled key slot with won | ⟨jobId, read, missed⟩
  · exact .inl ((did_cons ..).mpr (.inr won))
  · exact .inr ⟨jobId, (did_cons ..).mpr (.inr read),
      (did_cons ..).mpr (.inr missed)⟩

/-- A request that has found no row missing has reserved its slot. -/
theorem Entitled.won {slot : String} (entitled : Entitled input own)
    (named : slotName input = some slot)
    (found : ∀ jobId, ¬did own Event.missed? jobId) :
    did own Event.won? slot := by
  rcases entitled slot named with won | ⟨jobId, _, missed⟩
  · exact won
  · exact absurd missed (found jobId)

/-- A call that is none of the four steps of creating a job. -/
def Event.Neutral (event : Event) : Prop :=
  event.asked? = none ∧ event.inserted? = none ∧ event.released? = none ∧
    event.resolved? = none

theorem Untried.cons (untried : Untried own) (neutral : event.Neutral) :
    Untried (event :: own) := by
  obtain ⟨unasked, uninserted, unreleased, unresolved⟩ := neutral
  constructor
  · simpa [unasked] using untried.unasked
  · simpa [uninserted] using untried.uninserted
  · simpa [unreleased] using untried.unreleased
  · simpa [unresolved] using untried.unresolved

theorem Uncreated.cons (uncreated : Uncreated input own)
    (neutral : event.Neutral) : Uncreated input (event :: own) where
  owned := uncreated.owned.cons
  uninserted := by simpa [neutral.2.1] using uncreated.uninserted
  unreleased := by simpa [neutral.2.2.1] using uncreated.unreleased
  unresolved := by simpa [neutral.2.2.2] using uncreated.unresolved

theorem Created.cons {job : Job} (created : Created input job own)
    (neutral : event.Neutral) : Created input job (event :: own) where
  entitled := created.entitled.cons
  inserted := (did_cons ..).mpr (.inr created.inserted)
  unreleased := by simpa [neutral.2.2.1] using created.unreleased
  unresolved := by simpa [neutral.2.2.2] using created.unresolved

theorem Releasable.cons (releasable : Releasable input own)
    (kept : event.released? = none) : Releasable input (event :: own) where
  entitled := releasable.entitled.cons
  unreleased := by simpa [kept] using releasable.unreleased

theorem Uncreated.releasable (uncreated : Uncreated input own)
    (entitled : Entitled input own) : Releasable input own :=
  ⟨entitled, uncreated.unreleased⟩

theorem Created.releasable {job : Job} (created : Created input job own) :
    Releasable input own :=
  ⟨created.entitled, created.unreleased⟩

/-- A call that has raised has not resolved a slot. -/
theorem Event.resolved?_error (pid : Pid) (call : Call)
    (failure : AppError) :
    Event.resolved? ⟨pid, call, .error failure⟩ = none := by
  cases call <;> rfl

end

namespace TraceDiscipline

variable {strict : Prop} {known : List Event → Prop} {view : Trace}
  {Next : Type}

variable {input : EnqueueInput}

/-- A request that has lost a reply is excused, or it has not resolved its
slot. -/
theorem Knows.unresolved (knows : Knows (.enqueue input) known view) :
    Knows (.enqueue input)
      (fun own => known own ∧
        (strict → ∀ slot, ¬did own Event.resolved? slot))
      ((traceDiscipline strict).lost view) := by
  rcases knows with excused | ⟨same, holds⟩
  · exact .inl (.inl excused)
  · by_cases resolved : ∃ slot, did view.own Event.resolved? slot
    · by_cases strictly : strict
      · exact .inl (.inr ⟨strictly, ⟨input, same⟩, resolved⟩)
      · exact .inr ⟨same, holds, fun isStrict => absurd isStrict strictly⟩
    · exact .inr ⟨same, holds, fun _ => not_exists.mp resolved⟩

/-- One call of a request.  When it fails, the slot is not resolved. -/
theorem follows_await {post : Trace → Except AppError Next → Prop}
    {call : Call} {rest : call.Reply → Async Next}
    (knows : Knows (.enqueue input) known view)
    (allows : ∀ own, known own → Role.EnqueueAllows strict input own call)
    (failed : ∀ now failure, Knows (.enqueue input)
      (fun own => (known own ∨ ∃ outcome, After call outcome known own) ∧
        (strict → ∀ slot, ¬did own Event.resolved? slot)) now →
        post now (.error failure))
    (replied : ∀ now reply, call.Answers (.ok reply) →
      Knows (.enqueue input) (After call (.ok reply) known) now →
        (traceDiscipline strict).Follows post (rest reply) now) :
    (traceDiscipline strict).Follows post ((await call).bind rest) view := by
  have throws : ∀ now failure, Knows (.enqueue input)
      (fun own => (known own ∨ ∃ outcome, After call outcome known own) ∧
        (strict → ∀ slot, ¬did own Event.resolved? slot)) now →
        (traceDiscipline strict).Follows post (.throw failure) now := by
    intro now failure knowsNow later same
    rw [same]
    exact failed now failure knowsNow
  rintro _ rfl
  refine ⟨knows.allowed allows, fun _ failure =>
    throws _ failure (knows.unresolved.mono fun _ => .imp_left .inl), ?_⟩
  intro outcome after effect
  have knowsAfter := knows.effect effect
  refine ⟨fun _ failure => throws _ failure
      (knowsAfter.unresolved.mono fun _ => .imp_left fun holds => .inr ⟨_, holds⟩),
    ?_, ?_⟩
  · rintro failure rfl
    refine throws _ failure (knowsAfter.mono ?_)
    intro own holds
    refine ⟨.inr ⟨_, holds⟩, fun strictly slot => ?_⟩
    obtain ⟨pid, earlier, rfl, holds⟩ := holds
    rw [did_cons, Event.resolved?_error]
    exact not_or.mpr ⟨by simp, (allows earlier holds).1 strictly slot⟩
  · rintro reply rfl
    exact replied _ reply effect.2.2.2 knowsAfter

/-- A request that returns a job has been answered. -/
abbrev Answers (input : EnqueueInput) (view : Trace)
    (outcome : Except AppError Job) : Prop :=
  ∀ job, outcome = .ok job →
    Knows (.enqueue input) (Answered input job) view

/-- The last call of a program. -/
theorem follows_last {call : Call}
    {post : Trace → Except AppError call.Reply → Prop}
    (knows : Knows (.enqueue input) known view)
    (allows : ∀ own, known own → Role.EnqueueAllows strict input own call)
    (failed : ∀ now failure, Knows (.enqueue input)
      (fun own => (known own ∨ ∃ outcome, After call outcome known own) ∧
        (strict → ∀ slot, ¬did own Event.resolved? slot)) now →
        post now (.error failure))
    (replied : ∀ now reply,
      Knows (.enqueue input) (After call (.ok reply) known) now →
        post now (.ok reply)) :
    (traceDiscipline strict).Follows post (await call) view := by
  have whole : (await call).bind Program.pure = await call := rfl
  rw [← whole]
  exact follows_await knows allows failed fun now reply _ knowsNow =>
    follows_pure (replied now reply knowsNow)

/-- Looking up a webhook. -/
theorem getOwnedBy_follows
    (knows : Knows (.enqueue input) Untried view) :
    (traceDiscipline strict).Follows
      (fun now outcome => ∀ webhook, outcome = .ok webhook →
        Knows (.enqueue input) (fun own => Untried own ∧ Owned input own) now)
      (WebhookService.getOwnedBy input.webhookId input.tenant) view := by
  refine follows_await knows
    (fun own untried => ⟨fun _ => untried.unresolved, trivial⟩)
    (fun _ _ _ _ same => by cases same) ?_
  rintro now (_ | webhook) answers knowsNow
  · exact follows_throw fun _ same => by cases same
  dsimp only
  split
  · exact follows_throw fun _ same => by cases same
  next owner =>
    refine follows_pure fun _ _ => knowsNow.mono ?_
    rintro _ ⟨pid, earlier, rfl, untried⟩
    exact ⟨untried.cons ⟨rfl, rfl, rfl, rfl⟩, webhook,
      (did_cons ..).mpr (.inl rfl), not_not.mp owner⟩

/-- What `begin` tells a request about its slot. -/
theorem begin_follows {key : String}
    (requested : JobService.requestKey input = some key)
    (knows : Knows (.enqueue input)
      (fun own => Untried own ∧ Owned input own) view) :
    (traceDiscipline strict).Follows
      (fun now outcome => ∀ result, outcome = .ok result →
        Knows (.enqueue input) (fun own => Uncreated input own ∧
          (result = .new → Entitled input own) ∧
          ∀ jobId, result = .duplicate jobId →
            ∃ key, slotName input = some key ∧
              did own Event.slotRead? (key, jobId)) now)
      (Idempotency.begin input.tenant key) view := by
  have slot : slotName input = some (Idempotency.redisKey input.tenant key) := by
    rw [slotName, requested]
    rfl
  refine follows_await knows (fun own holds =>
    ⟨fun _ => holds.1.unresolved, slot, holds.1.unasked⟩)
    (fun _ _ _ _ same => by cases same) ?_
  intro now won answers knowsNow
  cases won with
  | true =>
      apply follows_pure
      rintro _ ⟨rfl⟩
      apply knowsNow.mono
      rintro _ ⟨pid, earlier, rfl, untried, owned⟩
      refine ⟨⟨owned.cons, ?_, ?_, ?_⟩, fun _ => ?_, by simp⟩
      · simpa [Event.inserted?] using untried.uninserted
      · simpa [Event.released?] using untried.unreleased
      · simpa [Event.resolved?] using untried.unresolved
      · intro name isSlot
        rw [slot] at isSlot
        cases isSlot
        exact .inl ((did_cons ..).mpr (.inl rfl))
  | false =>
      have refused : Knows (.enqueue input) (Uncreated input) now := by
        apply knowsNow.mono
        rintro _ ⟨pid, earlier, rfl, untried, owned⟩
        refine ⟨owned.cons, ?_, ?_, ?_⟩
        · simpa [Event.inserted?] using untried.uninserted
        · simpa [Event.released?] using untried.unreleased
        · simpa [Event.resolved?] using untried.unresolved
      refine follows_await refused (fun own uncreated =>
        ⟨fun _ => uncreated.unresolved, slot⟩)
        (fun _ _ _ _ same => by cases same) ?_
      intro later found answers knowsLater
      have uncreated : Knows (.enqueue input) (fun own =>
          Uncreated input own ∧ ∀ jobId, found = some (.job jobId) →
            did own Event.slotRead?
              (Idempotency.redisKey input.tenant key, jobId)) later := by
        apply knowsLater.mono
        rintro _ ⟨pid, earlier, rfl, uncreated⟩
        refine ⟨uncreated.cons ⟨rfl, ?_, rfl, rfl⟩, ?_⟩
        · rfl
        · rintro jobId rfl
          exact (did_cons ..).mpr (.inl rfl)
      rcases found with _ | (_ | jobId)
      · apply follows_pure
        rintro _ ⟨rfl⟩
        exact uncreated.mono fun own holds => ⟨holds.1, by simp, by simp⟩
      · apply follows_pure
        rintro _ ⟨rfl⟩
        exact uncreated.mono fun own holds => ⟨holds.1, by simp, by simp⟩
      · apply follows_pure
        rintro _ ⟨rfl⟩
        refine uncreated.mono fun own holds => ⟨holds.1, by simp, ?_⟩
        rintro other ⟨rfl⟩
        exact ⟨_, slot, holds.2 jobId rfl⟩

/-- The job of a request goes to `ready` or `delayed`. -/
theorem place_follows {job : Job} {now : Int}
    (knows : Knows (.enqueue input)
      (fun own => Created input job own ∧ did own Event.clock? now) view) :
    (traceDiscipline strict).Follows
      (fun now outcome => match outcome with
        | .ok _ => Knows (.enqueue input)
            (fun own => Created input job own ∧
              did own Event.placed? job.id) now
        | .error _ => Knows (.enqueue input) (fun own =>
            Releasable input own ∧
              (strict → ∀ slot, ¬did own Event.resolved? slot)) now)
      (JobService.place job now) view := by
  have releasable : ∀ {call : Call} (own : List Event),
      (∀ pid outcome, (Event.mk pid call outcome).released? = none) →
      ((Created input job own ∧ did own Event.clock? now) ∨
        ∃ outcome, After call outcome (fun own => Created input job own ∧
          did own Event.clock? now) own) → Releasable input own := by
    rintro call own kept (holds | ⟨outcome, pid, earlier, rfl, holds⟩)
    · exact holds.1.releasable
    · exact holds.1.releasable.cons (kept pid outcome)
  unfold JobService.place
  split
  next future =>
    refine follows_last knows ?_ ?_ ?_
    · exact fun own holds => ⟨fun _ => holds.1.unresolved, job,
        holds.1.inserted, rfl, rfl⟩
    · intro later failure failed
      exact failed.mono fun own holds =>
        ⟨releasable own (fun _ _ => rfl) holds.1, holds.2⟩
    · intro later reply knowsLater
      apply knowsLater.mono
      rintro _ ⟨pid, earlier, rfl, created, _⟩
      exact ⟨created.cons ⟨rfl, rfl, rfl, rfl⟩,
        (did_cons ..).mpr (.inl rfl)⟩
  next due =>
    refine follows_last knows ?_ ?_ ?_
    · exact fun own holds => ⟨fun _ => holds.1.unresolved, job, now,
        holds.1.inserted, rfl, holds.2, not_lt.mp due⟩
    · intro later failure failed
      exact failed.mono fun own holds =>
        ⟨releasable own (fun _ _ => rfl) holds.1, holds.2⟩
    · intro later reply knowsLater
      apply knowsLater.mono
      rintro _ ⟨pid, earlier, rfl, created, _⟩
      exact ⟨created.cons ⟨rfl, rfl, rfl, rfl⟩,
        (did_cons ..).mpr (.inl rfl)⟩

/-- Resolving the slot is the last step of a request. -/
theorem resolveSlot_follows {job : Job}
    (knows : Knows (.enqueue input)
      (fun own => Created input job own ∧ did own Event.placed? job.id)
      view) :
    (traceDiscipline strict).Follows
      (fun now outcome => match outcome with
        | .ok _ => Knows (.enqueue input) (Answered input job) now
        | .error _ => Knows (.enqueue input) (fun own =>
            Releasable input own ∧
              (strict → ∀ slot, ¬did own Event.resolved? slot)) now)
      (JobService.resolveSlot input job.id) view := by
  unfold JobService.resolveSlot
  split
  next key requested =>
    have slot : slotName input =
        some (Idempotency.redisKey input.tenant key) := by
      rw [slotName, requested]
      rfl
    refine follows_last knows ?_ ?_ ?_
    · exact fun own holds => ⟨fun _ => holds.1.unresolved, slot,
        holds.1.entitled, ⟨job, holds.1.inserted, rfl⟩, holds.2,
        holds.1.unreleased⟩
    · intro later failure failed
      refine failed.mono fun own holds => ⟨?_, holds.2⟩
      obtain ⟨created | ⟨outcome, pid, earlier, rfl, created⟩, _⟩ := holds
      · exact created.1.releasable
      · exact created.1.releasable.cons rfl
    · intro later reply knowsLater
      apply knowsLater.mono
      rintro _ ⟨pid, earlier, rfl, created, placed⟩
      refine .inl ⟨(did_cons ..).mpr (.inr created.inserted),
        (did_cons ..).mpr (.inr placed), fun name isSlot => ?_⟩
      rw [slot] at isSlot
      cases isSlot
      exact (did_cons ..).mpr (.inl rfl)
  next unrequested =>
    refine follows_pure (knows.mono fun own holds => ?_)
    refine .inl ⟨holds.1.inserted, holds.2, fun name isSlot => ?_⟩
    rw [slotName, unrequested] at isSlot
    cases isSlot

/-- The row first, then the id, then the slot. -/
theorem createJob_follows
    (knows : Knows (.enqueue input)
      (fun own => Uncreated input own ∧ Entitled input own) view) :
    (traceDiscipline strict).Follows
      (fun now outcome => match outcome with
        | .ok job => Knows (.enqueue input) (Answered input job) now
        | .error _ => Knows (.enqueue input) (fun own =>
            Releasable input own ∧
              (strict → ∀ slot, ¬did own Event.resolved? slot)) now)
      (JobService.createJob input) view := by
  refine follows_await knows ?_ ?_ ?_
  · exact fun own holds => ⟨fun _ => holds.1.unresolved, rfl,
      holds.1.owned, holds.2, holds.1.uninserted, holds.1.unreleased⟩
  · intro later failure failed
    refine failed.mono fun own holds => ⟨?_, holds.2⟩
    obtain ⟨before | ⟨outcome, pid, earlier, rfl, before⟩, _⟩ := holds
    · exact before.1.releasable before.2
    · exact (before.1.releasable before.2).cons rfl
  intro later job _ knowsLater
  have created : Knows (.enqueue input) (Created input job) later := by
    apply knowsLater.mono
    rintro _ ⟨pid, earlier, rfl, before, entitled⟩
    refine ⟨entitled.cons, (did_cons ..).mpr (.inl rfl), ?_, ?_⟩
    · simpa [Event.released?] using before.unreleased
    · simpa [Event.resolved?] using before.unresolved
  refine follows_await created ?_ ?_ ?_
  · exact fun own holds => ⟨fun _ => holds.unresolved, trivial⟩
  · intro later failure failed
    refine failed.mono fun own holds => ⟨?_, holds.2⟩
    obtain ⟨before | ⟨outcome, pid, earlier, rfl, before⟩, _⟩ := holds
    · exact before.releasable
    · exact before.releasable.cons rfl
  intro later now _ knowsLater
  have told : Knows (.enqueue input)
      (fun own => Created input job own ∧ did own Event.clock? now) later := by
    apply knowsLater.mono
    rintro _ ⟨pid, earlier, rfl, before⟩
    exact ⟨before.cons ⟨rfl, rfl, rfl, rfl⟩, (did_cons ..).mpr (.inl rfl)⟩
  refine Follows.bind ((place_follows told).mono ?_)
  rintro now (failure | _) placed
  · exact placed
  refine Follows.bind ((resolveSlot_follows placed).mono ?_)
  rintro now (failure | _) answered
  · exact answered
  · exact follows_pure answered

/-- A request that fails to create its job releases its slot. -/
theorem createOrAbort_follows
    (knows : Knows (.enqueue input)
      (fun own => Uncreated input own ∧ Entitled input own) view) :
    (traceDiscipline strict).Follows (Answers input)
      (JobService.createOrAbort input) view := by
  refine Follows.tryCatch ((createJob_follows knows).mono ?_)
  rintro now (failure | job) ended
  · have throws : ∀ later, (traceDiscipline strict).Follows (Answers input)
        (.throw failure : Async Job) later :=
      fun _ => follows_throw fun _ same => by cases same
    dsimp only
    unfold JobService.releaseSlot
    split
    next key requested =>
      have slot : slotName input =
          some (Idempotency.redisKey input.tenant key) := by
        rw [slotName, requested]
        rfl
      refine follows_await ended ?_ (fun _ _ _ _ same => by cases same)
        fun later _ _ _ => throws later
      exact fun own holds => ⟨holds.2, slot, holds.1.entitled,
        holds.1.unreleased⟩
    · exact throws now
  · rintro _ ⟨rfl⟩
    exact ended

/-- A request answers with its own job or with that of its slot. -/
theorem enqueue_follows (knows : Knows (.enqueue input) Untried view) :
    (traceDiscipline strict).Follows (Answers input)
      (JobService.enqueue input) view := by
  have throws : ∀ failure now, (traceDiscipline strict).Follows
      (Answers input) (.throw failure : Async Job) now :=
    fun _ _ => follows_throw fun _ same => by cases same
  refine Follows.bind ((getOwnedBy_follows knows).mono ?_)
  rintro now (failure | webhook) owned
  · exact fun _ same => by cases same
  have untried := owned webhook rfl
  dsimp only
  split
  · exact throws _ _
  split
  next unrequested =>
    refine createOrAbort_follows (untried.mono fun own holds => ?_)
    refine ⟨⟨holds.2, holds.1.uninserted, holds.1.unreleased,
      holds.1.unresolved⟩, fun name isSlot => ?_⟩
    rw [slotName, unrequested] at isSlot
    cases isSlot
  next key requested =>
    refine Follows.bind ((begin_follows requested untried).mono ?_)
    rintro now (failure | result) begun
    · exact fun _ same => by cases same
    have told := begun result rfl
    cases result with
    | new =>
        exact createOrAbort_follows
          (told.mono fun own holds => ⟨holds.1, holds.2.1 rfl⟩)
    | pending => exact throws _ _
    | duplicate jobId =>
        refine follows_await told ?_ (fun _ _ _ _ same => by cases same) ?_
        · exact fun own holds =>
            ⟨fun _ => holds.1.unresolved, holds.2.2 jobId rfl⟩
        rintro later (_ | existing) answers knowsLater
        · refine createOrAbort_follows (knowsLater.mono ?_)
          rintro _ ⟨pid, earlier, rfl, uncreated, _, read⟩
          obtain ⟨key, slot, isRead⟩ := read jobId rfl
          refine ⟨uncreated.cons ⟨rfl, rfl, rfl, rfl⟩, fun name isSlot => ?_⟩
          rw [slot] at isSlot
          cases isSlot
          exact .inr ⟨jobId, (did_cons ..).mpr (.inr isRead),
            (did_cons ..).mpr (.inl rfl)⟩
        · apply follows_pure
          rintro _ ⟨rfl⟩
          apply knowsLater.mono
          rintro _ ⟨pid, earlier, rfl, uncreated, _, read⟩
          obtain ⟨key, slot, isRead⟩ := read jobId rfl
          have same : existing.id = jobId := answers
          refine .inr ⟨key, slot, (did_cons ..).mpr (.inr ?_),
            (did_cons ..).mpr (.inl rfl)⟩
          rwa [same]

end TraceDiscipline

end WebhookDelivery
