import WebhookDelivery.FullReplays

/-!
# What operators are shown, and what they replay

The dashboard lists the dead-letter queue from its newest end, without the ids
whose rows are gone, and replays as many entries as it lists.  A replay draws
from the oldest end, and an id without a row uses up an iteration of its loop.
The two meet in the same jobs only on short queues.
-/

namespace WebhookDelivery

open Concurrency

/-! ## The listing -/

/-- `LRANGE dlq 0 (limit - 1)`; a negative index counts from the end. -/
def Redis.peekDlq (redis : Redis) (limit : Int) : List JobId :=
  let stop := limit - 1
  let last := if stop < 0 then redis.dlq.length + stop else stop
  redis.dlq.take (last + 1).toNat

/-- `findByIds`: the rows that are there, in the order of the ids. -/
def Postgres.findByIds (db : Postgres) (ids : List JobId) : List Job :=
  ids.filterMap db.findJob

def JobService.listDlq (store : Store) (limit : Int) : List Job :=
  store.db.findByIds (store.redis.peekDlq limit)

/-- The limit that the panel sends; with no job its button is disabled. -/
def DlqPanel.replayLimit (jobs : List Job) : Nat :=
  if jobs.length = 0 then 100 else jobs.length

/-- Pressing the button replays the jobs that are listed, and no others, if
nothing happens in between. -/
def ReplaysListed (deployment : Deployment) (pid : Pid)
    (choices : Nat → Choice) (store : Store) (limit : Int) : Prop :=
  let jobs := JobService.listDlq store limit
  jobs ≠ [] →
    ∃ replayed, ((JobService.replay (DlqPanel.replayLimit jobs)).run deployment
        pid (unhindered choices) store).ended = some (.ok replayed) ∧
      ∀ jobId, jobId ∈ replayed ↔ jobId ∈ jobs.map Job.id

/-! ## Both ends of a list -/

section Ends

variable {Entry : Type} {entries : List Entry} {survives : Entry → Bool}

/-- Without repetitions, a front part with the last entry in it is the whole
list. -/
theorem take_eq_self_of_last {count : Nat} (distinct : entries.Nodup)
    {last : Entry} {before : List Entry} (ends : entries = before ++ [last])
    (member : last ∈ entries.take count) : entries.take count = entries := by
  rw [List.take_eq_self_iff]
  by_contra short
  subst ends
  rw [List.length_append, List.length_singleton] at short
  rw [List.take_append_of_le_length (by omega)] at member
  have apart := (List.nodup_append.mp distinct).2.2
  exact apart last (List.mem_of_mem_take member) last
    (List.mem_singleton_self last) rfl

/-- When the survivors at the newest end and those among as many entries at
the oldest end are the same, on a list without repetitions. -/
theorem ends_agree_iff (distinct : entries.Nodup) (count : Nat) :
    let shown := entries.take count
    let drawn := entries.reverse.take (shown.countP survives)
    (∀ entry, entry ∈ drawn.filter survives ↔
        entry ∈ shown.filter survives) ↔
      shown.countP survives = 0 ∨
        shown = entries ∧ ∀ entry ∈ drawn, survives entry := by
  intro shown drawn
  have count : shown.countP survives = (shown.filter survives).length :=
    List.countP_eq_length_filter
  have distinctShown : (shown.filter survives).Nodup :=
    (distinct.sublist (List.take_sublist _ _)).filter _
  have distinctDrawn : drawn.Nodup :=
    (List.nodup_reverse.mpr distinct).sublist (List.take_sublist _ _)
  constructor
  · intro same
    have perm : (drawn.filter survives).Perm (shown.filter survives) :=
      (List.perm_ext_iff_of_nodup (distinctDrawn.filter _)
        distinctShown).mpr same
    have atMost : drawn.length ≤ (shown.filter survives).length :=
      count ▸ List.length_take_le _ _
    have all : ∀ entry ∈ drawn, survives entry := by
      apply List.length_filter_eq_length_iff.mp
      have kept := List.length_filter_le survives drawn
      rw [perm.length_eq] at kept ⊢
      omega
    rcases List.eq_nil_or_concat entries with empty | ⟨before, last, ends⟩
    · refine .inl ?_
      simp [shown, empty]
    by_cases none : shown.countP survives = 0
    · exact .inl none
    refine .inr ⟨?_, all⟩
    have oldest : last ∈ drawn := by
      obtain ⟨more, same⟩ := Nat.exists_eq_add_one_of_ne_zero none
      simp [drawn, ends, same]
    have listed := (same last).mp (List.mem_filter.mpr ⟨oldest, all _ oldest⟩)
    exact take_eq_self_of_last distinct (ends.trans List.concat_eq_append)
      (List.mem_of_mem_filter listed)
  · rintro (none | ⟨whole, all⟩) entry
    · rw [none, eq_comm, List.length_eq_zero_iff] at count
      simp [drawn, none, count]
    · have kept : drawn.filter survives = drawn := List.filter_eq_self.mpr all
      have within : drawn ⊆ shown.filter survives := by
        intro other member
        refine List.mem_filter.mpr ⟨?_, all other member⟩
        rw [whole]
        exact List.mem_reverse.mp (List.mem_of_mem_take member)
      have long : (shown.filter survives).length ≤ drawn.length := by
        have fits : (shown.filter survives).length ≤ entries.length :=
          (List.length_filter_le _ _).trans (List.take_sublist _ _).length_le
        rw [List.length_take, List.length_reverse, count,
          Nat.min_eq_left fits]
      have perm := (List.subperm_of_subset distinctDrawn
        within).perm_of_length_le long
      rw [kept, perm.mem_iff]

end Ends

/-! ## Replaying a listing -/

section Replays

variable {deployment : Deployment} {pid : Pid} {choices : Nat → Choice}
  {store : Store} {limit : Int}

theorem ids_findByIds (db : Postgres) (ids : List JobId) :
    (db.findByIds ids).map Job.id =
      ids.filter fun jobId => (db.jobs jobId).isSome := by
  induction ids with
  | nil => rfl
  | cons jobId ids ih =>
      unfold Postgres.findByIds at ih ⊢
      cases found : db.jobs jobId with
      | none => simp [Postgres.findJob, found, ih]
      | some row =>
          have own : row.id = jobId := db.keyed found
          simp [Postgres.findJob, found, ih, JobRow.toJob, own]

theorem length_listDlq :
    (JobService.listDlq store limit).length =
      ((store.redis.peekDlq limit).filter fun jobId =>
        (store.db.jobs jobId).isSome).length := by
  rw [← ids_findByIds, List.length_map]
  rfl

/-- What the button replays, and what the panel lists. -/
theorem replaysListed_iff_agree :
    ReplaysListed deployment pid choices store limit ↔
      (JobService.listDlq store limit ≠ [] → ∀ jobId,
        jobId ∈ store.replayable (JobService.listDlq store limit).length ↔
          jobId ∈ (store.redis.peekDlq limit).filter fun jobId =>
            (store.db.jobs jobId).isSome) := by
  unfold ReplaysListed
  refine imp_congr_right fun listed => ?_
  have count : DlqPanel.replayLimit (JobService.listDlq store limit) =
      (JobService.listDlq store limit).length :=
    if_neg (mt List.length_eq_zero_iff.mp listed)
  have ended : ((JobService.replay (JobService.listDlq store
      limit).length).run deployment pid (unhindered choices) store).ended =
        some (.ok (store.replayable (JobService.listDlq store
          limit).length)) :=
    (replayLoop_ends _ store [] []).1
  have ids : (JobService.listDlq store limit).map Job.id =
      (store.redis.peekDlq limit).filter fun jobId =>
        (store.db.jobs jobId).isSome := ids_findByIds ..
  rw [count, ended, ids]
  constructor
  · rintro ⟨_, ⟨rfl⟩, same⟩
    exact same
  · exact fun same => ⟨_, rfl, same⟩

end Replays

/-- The button replays what is listed exactly if the jobs with a row that are
shown are those among as many of the oldest entries.  Without repeated ids
this means that nothing is listed, or that the whole queue is shown and no id
without a row is among these entries. -/
theorem replaysListed_iff (deployment : Deployment) (pid : Pid)
    (choices : Nat → Choice) (store : Store) (limit : Int) :
    let survives := fun jobId => (store.db.jobs jobId).isSome
    let shown := store.redis.peekDlq limit
    let oldest := store.redis.dlq.reverse.take (shown.countP survives)
    (ReplaysListed deployment pid choices store limit ↔
      ∀ jobId, survives jobId → (jobId ∈ shown ↔ jobId ∈ oldest)) ∧
    (store.redis.dlq.Nodup →
      (ReplaysListed deployment pid choices store limit ↔
        shown.countP survives = 0 ∨
          shown = store.redis.dlq ∧ ∀ jobId ∈ oldest, survives jobId)) := by
  intro survives shown oldest
  have count : (JobService.listDlq store limit).length =
      shown.countP survives :=
    length_listDlq.trans List.countP_eq_length_filter.symm
  have replayable : store.replayable (JobService.listDlq store limit).length =
      oldest.filter survives := by
    rw [count]
    rfl
  have agree : ReplaysListed deployment pid choices store limit ↔
      ∀ jobId, jobId ∈ oldest.filter survives ↔
        jobId ∈ shown.filter survives := by
    rw [replaysListed_iff_agree, replayable]
    constructor
    · intro same
      by_cases none : JobService.listDlq store limit = []
      · rw [none, List.length_nil] at count
        have nothing : shown.filter survives = [] :=
          List.length_eq_zero_iff.mp
            (List.countP_eq_length_filter.symm.trans count.symm)
        simp [oldest, ← count, nothing]
      · exact same none
    · exact fun same _ => same
  refine ⟨agree.trans ?_, fun distinct => agree.trans ?_⟩
  · simp only [List.mem_filter]
    constructor
    · intro same jobId exists_
      have := same jobId
      tauto
    · intro same jobId
      have := same jobId
      tauto
  · exact ends_agree_iff distinct _

/-- Three dead jobs, of which the listing shows the two newest. -/
def threeDead : Store where
  redis := { Redis.empty with dlq := [4, 3, 2] }
  db := ((Postgres.empty.setJob
    (JobInput.newRow 5 2 0 ⟨"acme", 1, "order.paid", "{}", none⟩
      "{}")).setJob
    (JobInput.newRow 5 3 0 ⟨"acme", 1, "order.paid", "{}", none⟩
      "{}")).setJob
    (JobInput.newRow 5 4 0 ⟨"acme", 1, "order.paid", "{}", none⟩ "{}")

/-- With room for all three, they are listed, and all three replayed. -/
theorem replaysListed_iff_threeDead :
    ReplaysListed {} 0 (fun _ => {}) threeDead 100 :=
  ((replaysListed_iff {} 0 (fun _ => {}) threeDead 100).2
    (by decide)).mpr (.inr (by decide))

/-- Jobs 4 and 3 are listed, jobs 2 and 3 replayed. -/
theorem replays_unlisted :
    (JobService.listDlq threeDead 2).map Job.id = [4, 3] ∧
      ((JobService.replay 2).run {} 0 (unhindered fun _ => {})
        threeDead).ended = some (.ok [2, 3]) ∧
      ¬ ReplaysListed {} 0 (fun _ => {}) threeDead 2 := by
  refine ⟨by decide, rfl, ?_⟩
  intro replays
  obtain ⟨replayed, ended, same⟩ := replays (by decide)
  cases ended
  exact absurd ((same 2).mp (by decide)) (by decide)

end WebhookDelivery
