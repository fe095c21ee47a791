import WebhookDelivery.Library.Alike
import WebhookDelivery.Tenants

/-!
# Stores that look the same to a tenant

A tenant sees its slots, the webhooks and the rows of its jobs, apart from how
far a job has come.  Calls of others do not change what it sees, and its own
calls have the same effect and the same answer on stores that look the same.
-/

namespace WebhookDelivery

open Concurrency Program

/-! ## Slots -/

namespace Redis

/-- The clocks agree, and so do these slots. -/
structure SameSlots (slots : String → Prop) (redis other : Redis) : Prop where
  clock : redis.clock = other.clock
  slots : ∀ {name}, slots name → redis.slots name = other.slots name

variable {slots : String → Prop} {redis other third : Redis}

namespace SameSlots

theorem refl (redis : Redis) : SameSlots slots redis redis :=
  ⟨rfl, fun _ => rfl⟩

theorem symm (same : SameSlots slots redis other) :
    SameSlots slots other redis :=
  ⟨same.clock.symm, fun theirs => (same.slots theirs).symm⟩

theorem trans (first : SameSlots slots redis other)
    (second : SameSlots slots other third) : SameSlots slots redis third :=
  ⟨first.clock.trans second.clock,
    fun theirs => (first.slots theirs).trans (second.slots theirs)⟩

theorem of_eq (clock : redis.clock = other.clock)
    (slots' : redis.slots = other.slots) : SameSlots slots redis other :=
  ⟨clock, fun {name} _ => congrFun slots' name⟩

theorem getSlot (same : SameSlots slots redis other) {name : String}
    (theirs : slots name) : redis.getSlot name = other.getSlot name := by
  simp only [Redis.getSlot, same.clock, same.slots theirs]

theorem setSlot (same : SameSlots slots redis other) (name : String)
    (value : SlotValue) (ttlMs : Int) :
    SameSlots slots (redis.setSlot name value ttlMs)
      (other.setSlot name value ttlMs) where
  clock := same.clock
  slots {key} theirs := by
    simp only [Redis.setSlot, same.clock, Function.update_apply]
    split
    · rfl
    · exact same.slots theirs

theorem delSlot (same : SameSlots slots redis other) (name : String) :
    SameSlots slots (redis.delSlot name) (other.delSlot name) where
  clock := same.clock
  slots {key} theirs := by
    simp only [Redis.delSlot, Function.update_apply]
    split
    · rfl
    · exact same.slots theirs

theorem setSlotNx (same : SameSlots slots redis other) {name : String}
    (theirs : slots name) (ttlMs : Int) :
    (redis.setSlotNx name ttlMs).1 = (other.setSlotNx name ttlMs).1 ∧
      SameSlots slots (redis.setSlotNx name ttlMs).2
        (other.setSlotNx name ttlMs).2 := by
  unfold Redis.setSlotNx
  rw [same.getSlot theirs]
  cases other.getSlot name with
  | none => exact ⟨rfl, same.setSlot name .pending ttlMs⟩
  | some value => exact ⟨rfl, same⟩

/-- Writing a slot that is not one of these. -/
theorem written {name : String} (foreign : ¬slots name)
    (value : Option (Expiring SlotValue)) :
    SameSlots slots
      { redis with slots := Function.update redis.slots name value }
      redis where
  clock := rfl
  slots {key} theirs := by
    refine Function.update_of_ne ?_ ..
    rintro rfl
    exact foreign theirs

theorem foldl {act : Redis → JobId → Redis}
    (keeps : ∀ redis jobId, SameSlots slots (act redis jobId) redis)
    (jobIds : List JobId) (redis : Redis) :
    SameSlots slots (jobIds.foldl act redis) redis := by
  induction jobIds generalizing redis with
  | nil => exact .refl redis
  | cons jobId jobIds ih => exact (ih _).trans (keeps redis jobId)

end SameSlots

theorem brpoplpush_sameSlots : SameSlots slots redis.brpoplpush.2 redis := by
  unfold brpoplpush
  split <;> exact .of_eq rfl rfl

theorem popDlq_sameSlots : SameSlots slots redis.popDlq.2 redis := by
  unfold popDlq
  split <;> exact .of_eq rfl rfl

theorem checkCircuit_sameSlots (webhookId : WebhookId)
    (now cooldownMs : Int) :
    SameSlots slots (redis.checkCircuit webhookId now cooldownMs).2
      redis := by
  unfold checkCircuit
  split <;> exact .of_eq rfl rfl

theorem take_sameSlots (webhookId : WebhookId) (rate burst now cost : Int) :
    SameSlots slots (redis.take webhookId rate burst now cost).2 redis := by
  unfold take
  dsimp only
  split <;> exact .of_eq rfl rfl

theorem promoteScript_sameSlots (nowMs : Int) (batchSize : Nat) :
    SameSlots slots (redis.promoteScript nowMs batchSize).2 redis :=
  @SameSlots.foldl slots promoteOne (fun _ _ => .of_eq rfl rfl) _ redis

theorem reapScript_sameSlots (nowMs : Int) (batchSize : Nat) :
    SameSlots slots (redis.reapScript nowMs batchSize).2 redis :=
  @SameSlots.foldl slots reapOne (fun _ _ => .of_eq rfl rfl) _ redis

end Redis

/-- A call leaves every slot alone but the one it names. -/
theorem exec_sameSlots (deployment : Deployment) (choice : Choice)
    {slots : String → Prop} {call : Call} (store : Store)
    (spares : ∀ name, call.slot? = some name → ¬slots name) :
    Redis.SameSlots slots (exec deployment choice call store).2.redis
      store.redis := by
  cases call with
  | brpoplpush => exact Redis.brpoplpush_sameSlots
  | popDlq => exact Redis.popDlq_sameSlots
  | checkCircuit => exact Redis.checkCircuit_sameSlots _ _ _
  | take => exact Redis.take_sameSlots _ _ _ _ _
  | setSlotNx name =>
      rcases store.redis.setSlotNx_cases name (24 * 60 * 60 * 1000) with
        ⟨_, won⟩ | ⟨_, refused⟩
      · simp only [exec, won]
        exact .written (spares name rfl) _
      · simp only [exec, refused]
        exact .refl _
  | setSlot name jobId => exact .written (spares name rfl) _
  | delSlot name => exact .written (spares name rfl) _
  | _ => exact .of_eq rfl rfl

/-! ## Rows -/

/-- Replies that differ at most in how far a job has come. -/
def SameOrigin : (call : Call) → call.Reply → call.Reply → Prop
  | .findJob _, found, other =>
      found.map Job.origin = other.map Job.origin
  | _, reply, other => reply = other

namespace Postgres

/-- What a tenant sees of the row under an id. -/
def shownTo (tenant : String) (db : Postgres) (jobId : JobId) :
    Option JobRow :=
  ((db.jobs jobId).filter fun row => decide (row.tenant = tenant)).map
    JobRow.origin

section Shown

variable {tenant : String} {db other : Postgres} {jobId : JobId}
  {row : JobRow}

theorem shownTo_of_absent (absent : db.jobs jobId = none) :
    db.shownTo tenant jobId = none := by
  rw [shownTo, absent, Option.filter_none, Option.map_none]

theorem shownTo_of_own (stored : db.jobs jobId = some row)
    (own : row.tenant = tenant) :
    db.shownTo tenant jobId = some row.origin := by
  rw [shownTo, stored, Option.filter_some, if_pos (decide_eq_true own),
    Option.map_some]

theorem shownTo_of_foreign (stored : db.jobs jobId = some row)
    (foreign : row.tenant ≠ tenant) : db.shownTo tenant jobId = none := by
  rw [shownTo, stored, Option.filter_some, if_neg (by simpa using foreign),
    Option.map_none]

theorem shownTo_congr (same : db.jobs jobId = other.jobs jobId) :
    db.shownTo tenant jobId = other.shownTo tenant jobId := by
  rw [shownTo, same, shownTo]

/-- A rewritten row is shown as before when its origin is the same. -/
theorem shownTo_of_origin {old : JobRow} (was : other.jobs jobId = some old)
    (stored : db.jobs jobId = some row) (same : row.origin = old.origin) :
    db.shownTo tenant jobId = other.shownTo tenant jobId := by
  by_cases own : old.tenant = tenant
  · rw [shownTo_of_own was own, shownTo_of_own stored
      ((JobRow.tenant_of_origin same).trans own), same]
  · rw [shownTo_of_foreign was own, shownTo_of_foreign stored
      (JobRow.tenant_of_origin same ▸ own)]

end Shown

/-- The second database has the same webhooks, and of the jobs those of the
tenant. -/
structure Shows (tenant : String) (db alone : Postgres) : Prop where
  webhooks : db.webhooks = alone.webhooks
  issued : ∀ {id}, id ∈ alone.issued → id ∈ db.issued
  rows : ∀ jobId,
    db.shownTo tenant jobId = (alone.jobs jobId).map JobRow.origin

namespace Shows

variable {tenant : String} {db alone : Postgres} {jobId : JobId}
  {row : JobRow}

theorem absent (shows : Shows tenant db alone)
    (hidden : db.shownTo tenant jobId = none) : alone.jobs jobId = none :=
  Option.map_eq_none_iff.mp ((shows.rows jobId).symm.trans hidden)

theorem stored (shows : Shows tenant db alone)
    (found : db.jobs jobId = some row) (own : row.tenant = tenant) :
    ∃ other, alone.jobs jobId = some other ∧ other.origin = row.origin :=
  Option.map_eq_some_iff.mp
    ((shows.rows jobId).symm.trans (shownTo_of_own found own))

/-- The job of the tenant that a request finds. -/
theorem findJob (shows : Shows tenant db alone)
    (theirs : ∀ row, db.jobs jobId = some row → row.tenant = tenant) :
    (db.findJob jobId).map Job.origin =
      (alone.findJob jobId).map Job.origin := by
  unfold Postgres.findJob
  cases found : db.jobs jobId with
  | none =>
      rw [shows.absent (shownTo_of_absent found)]
  | some row =>
      obtain ⟨other, there, same⟩ := shows.stored found (theirs row found)
      have jobs := congrArg (fun row : JobRow => row.toJob.origin) same
      rw [there]
      exact congrArg some jobs.symm

/-- The tenant's own `INSERT`, under an id that is new. -/
theorem insertJob (shows : Shows tenant db alone) {uuid : JobId}
    {input : JobInput} (own : input.tenant = tenant)
    (fresh : uuid ∉ db.issued) (jsonb : String → Option String)
    (maxAttempts : Nat) (now : Int) :
    (db.insertJob jsonb maxAttempts uuid now input).1 =
        (alone.insertJob jsonb maxAttempts uuid now input).1 ∧
      Shows tenant (db.insertJob jsonb maxAttempts uuid now input).2
        (alone.insertJob jsonb maxAttempts uuid now input).2 := by
  have freshToo : uuid ∉ alone.issued :=
    fun known => fresh (shows.issued known)
  unfold Postgres.insertJob
  rw [if_neg fresh, if_neg freshToo, shows.webhooks]
  split
  · exact ⟨rfl, shows⟩
  split
  · exact ⟨rfl, shows⟩
  split
  · exact ⟨rfl, shows⟩
  next payload _ =>
  refine ⟨rfl, shows.webhooks, fun known => ?_, fun jobId => ?_⟩
  · rcases List.mem_cons.mp known with rfl | earlier
    · exact List.mem_cons_self
    · exact List.mem_cons_of_mem _ (shows.issued earlier)
  · let row := input.newRow maxAttempts uuid now payload
    by_cases same : jobId = row.id
    · have inserted : ∀ db : Postgres, (db.setJob row).jobs jobId = some row :=
        fun db => (db.setJob_jobs row jobId).trans (if_pos same)
      have shown := @shownTo_of_own tenant (db.setJob row) jobId row
        (inserted db) own
      exact shown.trans (congrArg (Option.map JobRow.origin)
        (inserted alone).symm)
    · have kept : ∀ db : Postgres, (db.setJob row).jobs jobId = db.jobs jobId :=
        fun db => (db.setJob_jobs row jobId).trans (if_neg same)
      have shown := @shownTo_congr tenant (db.setJob row) db jobId (kept db)
      exact (shown.trans (shows.rows jobId)).trans
        (congrArg (Option.map JobRow.origin) (kept alone).symm)

/-- A change that the tenant does not see. -/
theorem of_hidden (shows : Shows tenant db alone) {later : Postgres}
    (webhooks : later.webhooks = db.webhooks)
    (issued : ∀ {id}, id ∈ db.issued → id ∈ later.issued)
    (rows : ∀ jobId, later.shownTo tenant jobId = db.shownTo tenant jobId) :
    Shows tenant later alone where
  webhooks := webhooks.trans shows.webhooks
  issued known := issued (shows.issued known)
  rows jobId := (rows jobId).trans (shows.rows jobId)

theorem insertWebhook (shows : Shows tenant db alone) (row : WebhookRow) :
    Shows tenant (db.insertWebhook row) (alone.insertWebhook row) where
  webhooks := by simp only [Postgres.insertWebhook, shows.webhooks]
  issued {id} known := by
    rcases List.mem_cons.mp known with rfl | earlier
    · exact List.mem_cons_self
    · exact List.mem_cons_of_mem _ (shows.issued earlier)
  rows := shows.rows

/-- A deleted webhook takes the tenant's jobs along on both sides. -/
theorem deleteWebhook (shows : Shows tenant db alone) (id : WebhookId) :
    Shows tenant (db.deleteWebhook id) (alone.deleteWebhook id) where
  webhooks := by simp only [Postgres.deleteWebhook, shows.webhooks]
  issued := shows.issued
  rows jobId := by
    have kept : ∀ {db : Postgres}, (db.deleteWebhook id).jobs jobId =
        (db.jobs jobId).filter fun row => decide (row.webhookId ≠ id) := rfl
    cases found : db.jobs jobId with
    | none =>
        rw [shownTo_of_absent (by rw [kept, found, Option.filter_none]), kept,
          shows.absent (shownTo_of_absent found), Option.filter_none,
          Option.map_none]
    | some row =>
        by_cases own : row.tenant = tenant
        · obtain ⟨other, there, same⟩ := shows.stored found own
          have webhook := JobRow.webhookId_of_origin same
          by_cases gone : row.webhookId = id
          · rw [shownTo_of_absent (by rw [kept, found]; simp [gone]), kept,
              there]
            simp [webhook, gone]
          · have left : (db.deleteWebhook id).jobs jobId = some row := by
              rw [kept, found]
              simp [gone]
            rw [shownTo_of_own left own, kept, there]
            simp [webhook, gone, same]
        · rw [kept, shows.absent (shownTo_of_foreign found own)]
          cases left : (db.deleteWebhook id).jobs jobId with
          | none => exact shownTo_of_absent left
          | some other =>
              rw [kept, found] at left
              cases (Option.filter_eq_some_iff.mp left).1
              exact shownTo_of_foreign (by rw [kept, found]; exact left) own

end Shows

end Postgres

/-! ## Calls -/

/-- The stores look the same to the tenant, who has these slots. -/
structure Store.Shows (tenant : String) (slots : String → Prop)
    (store alone : Store) : Prop where
  redis : store.redis.SameSlots slots alone.redis
  db : store.db.Shows tenant alone.db

/-- A call as the requests of the tenant make it: on its own slots and jobs,
under a new id. -/
def Call.StaysWithin (tenant : String) (slots : String → Prop) (store : Store)
    (choice : Choice) : Call → Prop
  | .now | .findWebhook _ | .push _ | .pushDelayed _ _ => True
  | .setSlotNx key | .getSlot key | .setSlot key _ | .delSlot key => slots key
  | .findJob jobId =>
      ∀ row, store.db.jobs jobId = some row → row.tenant = tenant
  | .insertJob input =>
      input.tenant = tenant ∧ choice.uuid ∉ store.db.issued
  | _ => False

namespace Store.Shows

variable {tenant : String} {slots : String → Prop} {store alone : Store}
  {deployment : Deployment} {choice : Choice} {call : Call}

/-- A call of the tenant has the same effect and the same answer. -/
theorem own (shows : Shows tenant slots store alone)
    (within : call.StaysWithin tenant slots store choice) :
    AlikeOutcomes (SameOrigin call) (exec deployment choice call store).1
        (exec deployment choice call alone).1 ∧
      Shows tenant slots (exec deployment choice call store).2
        (exec deployment choice call alone).2 := by
  have queued : call.slot? = none → Redis.SameSlots slots
      (exec deployment choice call store).2.redis
      (exec deployment choice call alone).2.redis := by
    intro slotless
    have spares : ∀ name, call.slot? = some name → ¬slots name := by
      intro name named
      rw [slotless] at named
      cases named
    exact ((exec_sameSlots deployment choice store spares).trans
      shows.redis).trans (exec_sameSlots deployment choice alone spares).symm
  cases call with
  | now => exact ⟨.ok rfl, shows⟩
  | findWebhook id =>
      refine ⟨.ok ?_, shows⟩
      simp only [SameOrigin, shows.db.webhooks]
  | push jobId => exact ⟨.ok rfl, queued rfl, shows.db⟩
  | pushDelayed jobId runAtMs => exact ⟨.ok rfl, queued rfl, shows.db⟩
  | setSlotNx key =>
      obtain ⟨same, slotsToo⟩ :=
        shows.redis.setSlotNx within (24 * 60 * 60 * 1000)
      exact ⟨.ok same, slotsToo, shows.db⟩
  | getSlot key => exact ⟨.ok (shows.redis.getSlot within), shows⟩
  | setSlot key jobId =>
      exact ⟨.ok rfl, shows.redis.setSlot key _ _, shows.db⟩
  | delSlot key => exact ⟨.ok rfl, shows.redis.delSlot key, shows.db⟩
  | findJob jobId => exact ⟨.ok (shows.db.findJob within), shows⟩
  | insertJob input =>
      obtain ⟨same, rows⟩ := shows.db.insertJob within.1 within.2
        deployment.jsonb deployment.maxAttempts choice.now
      refine ⟨?_, queued rfl, rows⟩
      simp only [exec, same]
      cases (alone.db.insertJob deployment.jsonb deployment.maxAttempts
        choice.uuid choice.now
        input).1 with
      | ok job => exact .ok rfl
      | error failure => exact .error
  | _ => exact within.elim

/-- A call on other slots and jobs does not show. -/
theorem foreign (shows : Shows tenant slots store alone)
    (recorded : ∀ {jobId row}, store.db.jobs jobId = some row →
      jobId ∈ store.db.issued)
    (spares : ∀ name, call.slot? = some name → ¬slots name)
    (inserts : ∀ input, call = .insertJob input → input.tenant ≠ tenant) :
    Shows tenant slots (exec deployment choice call store).2 alone where
  redis := (exec_sameSlots deployment choice store spares).trans shows.redis
  db := by
    refine shows.db.of_hidden (exec_webhooks deployment choice call store)
      (fun known => exec_issued deployment choice call store known)
      fun jobId => ?_
    rcases exec_jobs_cases deployment choice call store jobId with
      kept | ⟨update, old, _, _, was, _, now⟩ | ⟨old, _, was, now⟩ |
        ⟨input, rfl, unissued, _, payload, _, now⟩
    · exact Postgres.shownTo_congr kept
    · exact Postgres.shownTo_of_origin was now (update.apply_origin _ _)
    · exact Postgres.shownTo_of_origin was now (old.reset_origin _)
    · have absent : store.db.jobs jobId = none := by
        by_contra stored
        obtain ⟨row, found⟩ := Option.ne_none_iff_exists'.mp stored
        exact unissued (recorded found)
      rw [Postgres.shownTo_of_absent absent,
        Postgres.shownTo_of_foreign now (inserts input rfl)]

end Store.Shows

end WebhookDelivery
