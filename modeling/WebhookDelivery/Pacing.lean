import WebhookDelivery.Provenance
import WebhookDelivery.TokenBucket
import WebhookDelivery.Library.Permits
import Mathlib.Data.List.Pairwise

/-!
# The pace of the requests to a webhook

The limiter is a script in Redis, but what it is there to limit happens
elsewhere and later: any number of workers take tokens from one bucket, each
with its own reading of the clock, and send requests with them at any time.
Over every stretch of a run the requests to a webhook are at most the tokens
that were already taken, the capacity of the bucket and what comes in.
-/

namespace WebhookDelivery

open Concurrency RateLimit

variable {deployment : Deployment} {before after : State} {action : Action}

/-! ## Tokens taken and used -/

/-- Whether a process has a token of the webhook in hand after a call, where
the call decides it. -/
def Entry.holds? (webhookId : WebhookId) : Entry → Option Bool
  | ⟨.take id _ _ _ _, .ok rate⟩ =>
      if id = webhookId ∧ rate.allowed = true then some true else none
  | ⟨.fetch _, _⟩ | ⟨.brpoplpush, _⟩ => some false
  | _ => none

/-- The permits that processes have by their own calls. -/
def permits (holds? : Entry → Option Bool) : Permits.Scheme Event Pid where
  owner := Event.pid
  holds? event := holds? event.entry

/-- The tokens of the webhook. -/
abbrev tokens (webhookId : WebhookId) : Permits.Scheme Event Pid :=
  permits (Entry.holds? webhookId)

/-- A job that is inserted for the webhook. -/
def Event.insertedFor? (webhookId : WebhookId) : Event → Option JobId
  | ⟨_, .insertJob input, .ok job⟩ =>
      if input.webhookId = webhookId then some job.id else none
  | _ => none

/-- The call is a request for a job that was inserted for the webhook. -/
def addressed (webhookId : WebhookId) (event : Event)
    (earlier : List Event) : Bool :=
  decide (∃ request ∈ event.request?,
    did earlier (Event.insertedFor? webhookId) request.jobId)

/-- The requests for jobs that were inserted for the webhook. -/
def requestsTo (webhookId : WebhookId) (history : List Event) : Nat :=
  Permits.used (addressed webhookId) history

/-- A pass leaves its worker with a token for the webhook of its job. -/
theorem Pass.holding_calls (pass : Pass) (cleared : pass.Cleared)
    (earlier : List Entry) :
    Permits.holding (Entry.holds? pass.job.webhookId)
      (pass.calls deployment ++ earlier) = true := by
  simp [Permits.holding, calls, preparing, taking, Entry.holds?,
    cleared.granted]

/-! ## Jobs and their webhooks -/

/-- The id that a row is inserted under. -/
def Event.newJob? (event : Event) : Option JobId :=
  event.inserted?.map Job.id

/-- No id is given to two jobs. -/
structure Issuance (state : State) : Prop where
  known : ∀ event ∈ state.history, ∀ jobId ∈ event.newJob?,
    jobId ∈ state.store.db.issued
  once : state.history.Pairwise fun later earlier =>
    ∀ jobId ∈ later.newJob?, jobId ∉ earlier.newJob?

namespace Issuance

theorem initial : Issuance State.initial where
  known _ member := by cases member
  once := List.Pairwise.nil

theorem step (issuance : Issuance before)
    (taken : WebhookDelivery.step deployment before action = some after) :
    Issuance after := by
  have still : ∀ event ∈ before.history, ∀ jobId ∈ event.newJob?,
      jobId ∈ after.store.db.issued := fun event member jobId new =>
    Provenance.issued_of_step taken (issuance.known event member jobId new)
  rcases history_of_step taken with ⟨same, _⟩ | ⟨same, _⟩ |
    ⟨pid, choice, call, _, _, store, same⟩
  · exact ⟨same ▸ still, same ▸ issuance.once⟩
  · exact ⟨same ▸ still, same ▸ issuance.once⟩
  · have fresh : ∀ jobId ∈ Event.newJob? ⟨pid, call,
        (exec deployment choice call before.store).1⟩,
        jobId ∉ before.store.db.issued ∧
          jobId ∈ after.store.db.issued := by
      intro jobId new
      rw [store]
      cases call with
      | insertJob input =>
          cases outcome : (exec deployment choice (.insertJob input)
              before.store).1 with
          | error failure =>
              rw [outcome] at new
              cases new
          | ok job =>
              rw [outcome] at new
              cases new
              exact fresh_of_insertJob outcome
      | _ => cases new
    constructor
    · rw [same]
      intro event member jobId new
      rcases List.mem_cons.mp member with rfl | earlier
      · exact (fresh jobId new).2
      · exact still event earlier jobId new
    · rw [same]
      refine List.pairwise_cons.mpr ⟨fun event member jobId new old => ?_,
        issuance.once⟩
      exact (fresh jobId new).1 (issuance.known event member jobId old)

theorem of_run {actions : List Action}
    (runs : run (WebhookDelivery.step deployment) State.initial actions =
      some after) : Issuance after :=
  invariant_of_run runs initial fun _ _ _ issuance taken => issuance.step taken

/-- A job has one insertion. -/
theorem unique (issuance : Issuance after) {first second : Event}
    (firstIn : first ∈ after.history) (secondIn : second ∈ after.history)
    {jobId : JobId} (firstNew : first.newJob? = some jobId)
    (secondNew : second.newJob? = some jobId) : first = second := by
  by_contra distinct
  have symmetric : Std.Symm fun event other : Event =>
      ∀ jobId ∈ event.newJob?, jobId ∉ other.newJob? :=
    ⟨fun _ _ apart id new old => apart id old new⟩
  exact issuance.once.forall firstIn secondIn distinct jobId firstNew
    secondNew

end Issuance

/-- The job that a process has read was inserted for one webhook only. -/
theorem webhookId_of_read {actions : List Action}
    (runs : run (step deployment) State.initial actions = some after)
    {pid : Pid} {jobId : JobId} {job : Job}
    (read : ⟨.findJob jobId, .ok (some job)⟩ ∈ after.log pid)
    {webhookId : WebhookId}
    (insertedFor :
      did after.history (Event.insertedFor? webhookId) job.id) :
    job.webhookId = webhookId := by
  obtain ⟨book, provenance⟩ := Provenance.of_run runs
  obtain ⟨creator, input, created, insertion, origin⟩ :=
    provenance.jobRead read
  obtain ⟨now, payload, _, new⟩ := provenance.inserted insertion
  obtain ⟨same, addressed, _⟩ := Job.fixed_of_origin origin
  obtain ⟨⟨other, call, outcome⟩, member, inserted⟩ := insertedFor
  cases call with
  | insertJob inputToo =>
      cases outcome with
      | error failure => cases inserted
      | ok jobToo =>
          simp only [Event.insertedFor?, Option.ite_none_right_eq_some,
            Option.some.injEq] at inserted
          obtain ⟨rfl, own⟩ := inserted
          have once := (Issuance.of_run runs).unique
            (mem_log_iff.mp insertion) member (congrArg some same)
            (congrArg some own)
          cases once
          rw [← addressed, new]
          rfl
  | _ => cases inserted

/-- Every request for a job of the webhook ends a pass for a job of the
webhook. -/
theorem pass_of_addressed {actions : List Action}
    (runs : run (step deployment) State.initial actions = some after)
    {webhookId : WebhookId} {later earlier : List Event} {event : Event}
    (split : after.history = later ++ event :: earlier)
    (sends : addressed webhookId event earlier = true) :
    ∃ pass : Pass, pass.Cleared ∧ pass.job.webhookId = webhookId ∧
      event.call = .fetch (pass.request deployment) ∧
      ∃ before, ((earlier.filter fun other =>
          decide (other.pid = event.pid)).map Event.entry) =
        pass.calls deployment ++ before := by
  obtain ⟨request, asks, insertedFor⟩ := of_decide_eq_true sends
  have log : after.log event.pid =
      ((later.filter fun other => decide (other.pid = event.pid)).map
          Event.entry) ++ event.entry ::
        ((earlier.filter fun other => decide (other.pid = event.pid)).map
          Event.entry) := by
    rw [State.log, State.own, split]
    simp
  have guarded := (PassInvariant.of_run runs).kept event.pid _ _ _ log
  have sends : event.entry.request = .fetch request :=
    Event.call_of_request? asks
  rw [sends] at guarded
  obtain ⟨pass, cleared, rfl, before, calls⟩ := guarded
  have read : ⟨.findJob pass.jobId, .ok (some pass.job)⟩ ∈
      after.log event.pid := by
    rw [log, calls]
    simp [Pass.calls]
  have known : did after.history (Event.insertedFor? webhookId)
      pass.job.id := by
    obtain ⟨insertion, member, inserted⟩ := insertedFor
    refine ⟨insertion, ?_, inserted⟩
    rw [split]
    exact List.mem_append_right _ (List.mem_cons_of_mem _ member)
  exact ⟨pass, cleared, webhookId_of_read runs read known, sends, before,
    calls⟩

/-- Requests are made by processes with a permit, if every pass leads to one
that its request uses up. -/
theorem paid_of_run {actions : List Action}
    (runs : run (step deployment) State.initial actions = some after)
    {holds? : WebhookId → Entry → Option Bool}
    (held : ∀ pass : Pass, pass.Cleared → ∀ earlier,
      Permits.holding (holds? pass.job.webhookId)
        (pass.calls deployment ++ earlier) = true)
    (spent : ∀ webhookId request outcome,
      holds? webhookId ⟨.fetch request, outcome⟩ = some false)
    (webhookId : WebhookId) :
    (permits (holds? webhookId)).Paid (addressed webhookId) after.history := by
  intro later event earlier split sends
  obtain ⟨pass, cleared, rfl, asks, before, calls⟩ :=
    pass_of_addressed runs split sends
  constructor
  · obtain ⟨pid, call, outcome⟩ := event
    cases asks
    exact spent _ _ _
  · have has := held pass cleared before
    rw [← calls, Permits.holding_map] at has
    exact (Permits.Scheme.mem_holders _ _ _).mpr has

/-- The requests that a worker has sent to the webhook. -/
def sentTo (webhookId : WebhookId) (worker : Pid) (history : List Event) :
    Nat :=
  Permits.used (fun event earlier =>
    decide (event.pid = worker) && addressed webhookId event earlier) history

/-- Where no new permits are granted, a worker that has one sends at most one
request, and every other worker none. -/
theorem sentTo_le {holds? : Entry → Option Bool} {webhookId : WebhookId}
    {window : List Event} (grows : after.history = window ++ before.history)
    (paid : (permits holds?).Paid (addressed webhookId) after.history)
    (free : (permits holds?).granted window = 0) (worker : Pid) :
    sentTo webhookId worker after.history ≤
      sentTo webhookId worker before.history +
        if Permits.holding holds? (before.log worker) = true then 1 else 0 := by
  have bound := Permits.Scheme.usedBy_add_le worker window (grows ▸ paid)
  have has : worker ∈ (permits holds?).holders before.history ↔
      Permits.holding holds? (before.log worker) = true := by
    rw [Permits.Scheme.mem_holders, State.log, Permits.holding_map]
    rfl
  rw [free, ← grows] at bound
  simp only [has] at bound
  change sentTo webhookId worker after.history + _ ≤
    sentTo webhookId worker before.history + _ + 0 at bound
  omega

/-! ## The bucket -/

/-- The time that a call of the script brings to the bucket of a webhook. -/
def Call.takenAt? (webhookId : WebhookId) : Call → Option Int
  | .take id _ _ time _ => if id = webhookId then some time else none
  | _ => none

/-- The clocks agree up to `drift`, and the bucket of the webhook is not
called with an earlier time than before. -/
def Timely (drift : Int) (webhookId : WebhookId) (state : State)
    (action : Action) : Prop :=
  ∀ pid ∈ action.performer?, ∀ call ∈ state.pending? pid,
    ∀ now ∈ call.takenAt? webhookId,
      now ≤ state.store.redis.clock + drift ∧
        state.store.redis.clock ≤ now + drift ∧
          ∀ entry ∈ state.store.redis.buckets webhookId, entry.value.ts ≤ now

instance (drift : Int) (webhookId : WebhookId) (state : State)
    (action : Action) : Decidable (Timely drift webhookId state action) :=
  inferInstanceAs (Decidable (∀ pid ∈ action.performer?,
    ∀ call ∈ state.pending? pid, ∀ now ∈ call.takenAt? webhookId, _))

/-- The bucket accounts for the tokens that were spent from some time on. -/
structure Ledger (webhookId : WebhookId) (rate burst drift since : Int)
    (spent : Nat) (redis : Redis) : Prop where
  later : since + drift ≤ redis.clock
  stock : ∀ entry, redis.buckets webhookId = some entry →
    entry.value.Within burst ∧ entry.value.ts ≤ redis.clock + drift ∧
      ∃ expiresAt, entry.expiresAt = some expiresAt ∧
        entry.value.ts + ttlMs rate burst ≤ expiresAt + drift
  account : spent = 0 ∨ ∃ entry, redis.buckets webhookId = some entry ∧
    (spent + entry.value.tokens : ℚ) ≤
      burst + rate * (entry.value.ts - since) / 1000

namespace Ledger

variable {webhookId : WebhookId} {rate burst drift since : Int} {spent : Nat}
  {redis : Redis}

/-- Nothing is spent yet. -/
theorem reset (ledger : Ledger webhookId rate burst drift since spent redis) :
    Ledger webhookId rate burst drift (redis.clock - drift) 0 redis where
  later := by omega
  stock := ledger.stock
  account := .inl rfl

theorem mono (ledger : Ledger webhookId rate burst drift since spent redis)
    {other : Redis} (same : other.buckets webhookId = redis.buckets webhookId)
    (passes : redis.clock ≤ other.clock) :
    Ledger webhookId rate burst drift since spent other where
  later := ledger.later.trans passes
  stock entry stored := by
    obtain ⟨within, written, expires⟩ := ledger.stock entry (same ▸ stored)
    exact ⟨within, by omega, expires⟩
  account := by
    rw [same]
    exact ledger.account

/-- The script acts on a bucket that is still accounted for: by the time a key
expires its bucket is full, although the clocks differ. -/
theorem bucket (ledger : Ledger webhookId rate burst drift since spent redis)
    (fast : 1 ≤ rate) (roomy : 0 ≤ burst) (agree : 2 * drift ≤ 1000)
    {now : Int} (fresh : redis.clock ≤ now + drift)
    (ordered : ∀ entry, redis.buckets webhookId = some entry →
      entry.value.ts ≤ now) :
    ∃ bucket, takeScript rate burst now 1 (redis.bucket webhookId) =
        takeScript rate burst now 1 (some bucket) ∧
      0 ≤ bucket.tokens ∧ bucket.ts ≤ now ∧
        (spent = 0 ∨ (spent + bucket.tokens : ℚ) ≤
          burst + rate * (bucket.ts - since) / 1000) := by
  cases stored : redis.buckets webhookId with
  | none =>
      refine ⟨⟨burst, now⟩, ?_, Int.cast_nonneg roomy, le_rfl, .inl ?_⟩
      · rw [Redis.bucket, stored]
        exact takeScript_none ..
      · refine ledger.account.resolve_right ?_
        rintro ⟨entry, there, _⟩
        cases stored.symm.trans there
  | some entry =>
      obtain ⟨within, _, expiresAt, expires, lasts⟩ := ledger.stock _ stored
      refine ⟨entry.value, ?_, within.1, ordered _ stored, ?_⟩
      · have reads : redis.bucket webhookId = entry.read redis.clock := by
          rw [Redis.bucket, stored, Option.bind_some]
        rw [reads, Expiring.read, expires]
        dsimp only
        split
        · rfl
        next gone =>
          have full : refilled rate burst now entry.value = burst :=
            Redis.full_of_idle (by omega) within.1 (by omega)
          rw [takeScript_none]
          refine takeScript_congr _ _ _ ?_
          rw [full]
          simp [refilled]
      · refine ledger.account.imp_right ?_
        rintro ⟨other, there, bound⟩
        cases stored.symm.trans there
        exact bound

/-- The script keeps the account. -/
theorem take (ledger : Ledger webhookId rate burst drift since spent redis)
    (fast : 1 ≤ rate) (roomy : 0 ≤ burst) (agree : 2 * drift ≤ 1000)
    {now : Int} (early : now ≤ redis.clock + drift)
    (fresh : redis.clock ≤ now + drift)
    (ordered : ∀ entry, redis.buckets webhookId = some entry →
      entry.value.ts ≤ now) :
    ∃ reply, (redis.take webhookId rate burst now 1).1 = some reply ∧
      Ledger webhookId rate burst drift since
        (spent + if reply.allowed = true then 1 else 0)
        (redis.take webhookId rate burst now 1).2 := by
  obtain ⟨bucket, same, level, written, account⟩ :=
    ledger.bucket fast roomy agree fresh ordered
  obtain ⟨within, ts⟩ :=
    within_takeScript (by omega : 0 ≤ rate) roomy now level
  have costs := admitted_takeScript rate burst now bucket
  have nonzero : rate ≠ 0 := by omega
  have lasting := Redis.ttlMs_pos (by omega : 0 < rate) roomy
  have stores : (redis.take webhookId rate burst now 1).2.buckets webhookId =
      some ⟨(takeScript rate burst now 1 (some bucket)).2,
        some (redis.clock + ttlMs rate burst)⟩ := by
    simp only [Redis.take, same, nonzero, if_false, Function.update_self,
      Expiring.pexpire, lasting, if_true]
  have clock : (redis.take webhookId rate burst now 1).2.clock =
      redis.clock := by
    simp only [Redis.take, nonzero, if_false]
  refine ⟨(takeScript rate burst now 1 (some bucket)).1, ?_, ?_⟩
  · simp only [Redis.take, same, nonzero, if_false]
  generalize takeScript rate burst now 1 (some bucket) = result at *
  refine ⟨clock ▸ ledger.later, ?_, .inr ⟨_, stores, ?_⟩⟩
  · intro entry stored
    cases stores.symm.trans stored
    rw [clock, ts]
    exact ⟨within, early, _, rfl, by omega⟩
  · have one : ((spent + if result.1.allowed = true then 1 else 0 : ℕ) : ℚ) =
        spent + admitted [result.1] := by
      push_cast [admitted, List.countP_singleton]
      rfl
    have speed : (0 : ℚ) ≤ rate := by exact_mod_cast (by omega : 0 ≤ rate)
    dsimp only
    rw [one, add_assoc, costs, ts]
    rcases account with rfl | bound
    · have full := refilled_le rate burst now bucket
      have elapsed : (0 : ℚ) ≤ (now : ℚ) - since := by
        have := ledger.later
        exact_mod_cast (by omega : 0 ≤ now - since)
      have gained : (0 : ℚ) ≤ rate * (now - since) / 1000 := by positivity
      push_cast
      linarith
    · have gained := refilled_le_add rate burst now bucket
      rw [max_eq_right (by omega : 0 ≤ now - bucket.ts)] at gained
      push_cast at gained
      linarith

end Ledger

/-! ## The limiter in a run -/

/-- What the limiter keeps for a webhook. -/
def Redis.SameLimiter (webhookId : WebhookId) (redis other : Redis) : Prop :=
  redis.buckets webhookId = other.buckets webhookId ∧
    redis.clock = other.clock

/-- Only the script writes a bucket. -/
theorem exec_sameLimiter (deployment : Deployment) (choice : Choice)
    {call : Call} (store : Store) {webhookId : WebhookId}
    (other : call.takenAt? webhookId = none) :
    (exec deployment choice call store).2.redis.SameLimiter webhookId
      store.redis := by
  cases call with
  | brpoplpush =>
      simp only [exec, Redis.brpoplpush]
      split <;> exact ⟨rfl, rfl⟩
  | popDlq =>
      simp only [exec, Redis.popDlq]
      split <;> exact ⟨rfl, rfl⟩
  | setSlotNx name =>
      simp only [exec, Redis.setSlotNx]
      split <;> exact ⟨rfl, rfl⟩
  | checkCircuit id now cooldownMs =>
      simp only [exec, Redis.checkCircuit]
      split <;> exact ⟨rfl, rfl⟩
  | take id rate burst now cost =>
      have distinct : webhookId ≠ id := by
        rintro rfl
        simp [Call.takenAt?] at other
      simp only [exec, Redis.take]
      split <;> exact ⟨Function.update_of_ne distinct .., rfl⟩
  | _ => exact ⟨rfl, rfl⟩

/-- Only the script grants a token. -/
theorem holds?_of_untaken {webhookId : WebhookId} {call : Call}
    {outcome : Except AppError call.Reply}
    (other : call.takenAt? webhookId = none) :
    Entry.holds? webhookId ⟨call, outcome⟩ ≠ some true := by
  cases call with
  | take id rate burst time cost =>
      have distinct : id ≠ webhookId := by
        rintro rfl
        simp [Call.takenAt?] at other
      cases outcome with
      | ok reply => simp [Entry.holds?, distinct]
      | error failure => exact nofun
  | _ => exact nofun

/-- A step keeps the account of a bucket, and books every token it grants. -/
theorem Ledger.step {webhookId : WebhookId} {drift since : Int} {spent : Nat}
    (ledger : Ledger webhookId deployment.perSecond deployment.burst drift
      since spent before.store.redis)
    (invariant : PassInvariant deployment before)
    (fast : 1 ≤ deployment.perSecond) (roomy : 0 ≤ deployment.burst)
    (agree : 2 * drift ≤ 1000) (timely : Timely drift webhookId before action)
    (taken : WebhookDelivery.step deployment before action = some after) :
    ∃ window, after.history = window ++ before.history ∧
      Ledger webhookId deployment.perSecond deployment.burst drift since
        (spent + (tokens webhookId).granted window) after.store.redis := by
  cases steps_of_step taken with
  | @performed _ pid choice process call next rescue resumed found running
      connected resumes =>
      have pending := State.pending?_of_running found running
      refine ⟨[⟨pid, call, (exec deployment choice call before.store).1⟩],
        rfl, ?_⟩
      rw [State.perform_store]
      cases asks : call.takenAt? webhookId with
      | none =>
          have same := exec_sameLimiter deployment choice before.store asks
          have free : (tokens webhookId).granted [⟨pid, call,
              (exec deployment choice call before.store).1⟩] = 0 := by
            rw [Permits.Scheme.granted, List.countP_eq_zero]
            intro event member grants
            cases List.mem_singleton.mp member
            exact holds?_of_untaken asks (of_decide_eq_true grants)
          rw [free, Nat.add_zero]
          exact ledger.mono same.1 same.2.ge
      | some time =>
          obtain ⟨early, fresh, ordered⟩ := timely pid resumes.performer?.1
            call pending time asks
          cases call with
          | take id rate burst read cost =>
              obtain ⟨rfl, rfl⟩ : id = webhookId ∧ read = time := by
                simpa [Call.takenAt?] using asks
              obtain ⟨rfl, rfl, rfl, _⟩ :=
                invariant.disciplined.allowed pending
              obtain ⟨reply, replied, kept⟩ := ledger.take fast roomy agree
                early fresh fun entry stored => ordered entry stored
              have books : (tokens id).granted [⟨pid, .take id
                  deployment.perSecond deployment.burst read 1, .ok reply⟩] =
                    if reply.allowed = true then 1 else 0 := by
                simp [Permits.Scheme.granted, permits, Event.entry,
                  Entry.holds?]
              simp only [exec, replied, books]
              exact kept
          | _ => cases asks
  | promoted =>
      exact ⟨[], rfl, List.foldlRecOn _ Redis.promoteOne ledger
        fun _ kept _ _ => kept.mono rfl le_rfl⟩
  | reaped =>
      exact ⟨[], rfl, List.foldlRecOn _ Redis.reapOne ledger
        fun _ kept _ _ => kept.mono rfl le_rfl⟩
  | @ticked ms =>
      exact ⟨[], rfl, ledger.mono rfl (Int.le_add_of_nonneg_right
        (Int.natCast_nonneg ms))⟩
  | start | failed | crashed | shutdown | registered | deleted =>
      exact ⟨[], rfl, ledger⟩

/-- A run keeps the account of a bucket. -/
theorem Ledger.run {webhookId : WebhookId} {drift since : Int} {spent : Nat}
    (ledger : Ledger webhookId deployment.perSecond deployment.burst drift
      since spent before.store.redis)
    (invariant : PassInvariant deployment before)
    (fast : 1 ≤ deployment.perSecond) (roomy : 0 ≤ deployment.burst)
    (agree : 2 * drift ≤ 1000) {actions : List Action}
    (runs : Concurrency.run (WebhookDelivery.step deployment) before actions =
      some after)
    (timely : ∀ transition ∈
      transitions (WebhookDelivery.step deployment) before actions,
        Timely drift webhookId transition.before transition.action) :
    ∃ window, after.history = window ++ before.history ∧
      Ledger webhookId deployment.perSecond deployment.burst drift since
        (spent + (tokens webhookId).granted window) after.store.redis := by
  have booked := (tokens webhookId).granted_of_run
    (fun spent state => PassInvariant deployment state ∧
      Ledger webhookId deployment.perSecond deployment.burst drift since
        spent state.store.redis)
    (fun kept timely taken => by
      obtain ⟨window, grows, ends⟩ :=
        kept.2.step kept.1 fast roomy agree timely taken
      exact ⟨window, grows, kept.1.step taken, ends⟩)
    ⟨invariant, ledger⟩ runs timely
  obtain ⟨window, grows, _, ends⟩ := booked
  exact ⟨window, grows, ends⟩

/-- The tokens that a bucket has granted over a time are at most its capacity
and what came in. -/
theorem Ledger.spent_le {webhookId : WebhookId} {rate burst drift since : Int}
    {spent : Nat} {redis : Redis}
    (ledger : Ledger webhookId rate burst drift since spent redis)
    (fast : 1 ≤ rate) (roomy : 0 ≤ burst) (forwards : 0 ≤ drift) :
    (spent : ℚ) ≤ burst + rate * (redis.clock + drift - since) / 1000 := by
  have speed : (0 : ℚ) ≤ rate := by exact_mod_cast (by omega : 0 ≤ rate)
  have capacity : (0 : ℚ) ≤ burst := Int.cast_nonneg roomy
  rcases ledger.account with rfl | ⟨entry, stored, bound⟩
  · have elapsed : (0 : ℚ) ≤ (redis.clock + drift - since : ℚ) := by
      have := ledger.later
      exact_mod_cast (by omega : 0 ≤ redis.clock + drift - since)
    push_cast
    positivity
  · obtain ⟨within, written, _⟩ := ledger.stock entry stored
    have last : (entry.value.ts : ℚ) ≤ redis.clock + drift := by
      exact_mod_cast written
    have gained : rate * ((entry.value.ts : ℚ) - since) / 1000 ≤
        rate * (redis.clock + drift - since) / 1000 := by
      gcongr
    have level := within.1
    linarith

/-- Worker 1 has taken its token; then both workers send the job. -/
def pacedBefore : List Action :=
  enqueueOne ++ .start 1 .worker :: calls 1 8

def pacedAfter : List Action :=
  calls 1 7 ++ [.crash 1, .reap 60000 100] ++ deliverOnce 2 200 0

end WebhookDelivery
