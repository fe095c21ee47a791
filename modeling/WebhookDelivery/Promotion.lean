import WebhookDelivery.Services

/-!
# Draining the delayed set

Schedulers promote due jobs in batches.  At one time `nowMs`, calls with
batches of any size lead to one and the same state: what was due has moved to
the ready list, in the order in which it was due.
-/

namespace WebhookDelivery

open SortedSets

/-- A call of `promoteDue` by some scheduler. -/
structure PromoteCall where
  scheduler : Nat
  batchSize : Nat
  positive : 1 ≤ batchSize

namespace Redis

/-- The jobs that are due, in the order of their times and ids. -/
def due (redis : Redis) (nowMs : Int) : List JobId :=
  redis.delayed.upTo nowMs

/-- The state in which all jobs due at `nowMs` have been promoted. -/
def drained (redis : Redis) (nowMs : Int) : Redis :=
  { redis with
    delayed := redis.delayed.above nowMs
    ready := (redis.due nowMs).reverse ++ redis.ready }

/-- Calls of `promoteDue` at one time, whoever makes them. -/
def afterPromotes (redis : Redis) (nowMs : Int) (calls : List PromoteCall) :
    Redis :=
  calls.foldl
    (fun redis call => (redis.promoteScript nowMs call.batchSize).2) redis

/-- `reserve` of a worker that reads `nowMs`. -/
def reserve (redis : Redis) (nowMs : Int) : Option JobId × Redis :=
  match redis.brpoplpush with
  | (none, after) => (none, after)
  | (some jobId, after) =>
      (some jobId, after.zaddLease jobId (nowMs + Queue.visibilityTimeoutMs))

/-- What successive calls of `reserve` hand out. -/
def reserves : List Int → Redis → List (Option JobId)
  | [], _ => []
  | nowMs :: times, redis =>
      let reserved := redis.reserve nowMs
      reserved.1 :: reserves times reserved.2

variable (redis : Redis) (nowMs : Int)

theorem foldl_promoteOne (jobIds : List JobId) :
    jobIds.foldl promoteOne redis =
      { redis with
        delayed := jobIds.foldl SortedSet.remove redis.delayed
        ready := jobIds.reverse ++ redis.ready } := by
  induction jobIds generalizing redis with
  | nil => rfl
  | cons jobId jobIds ih =>
      rw [List.foldl_cons, ih]
      simp [promoteOne]

/-- A batch takes the first due jobs. -/
theorem promoteScript_eq (batchSize : Nat) :
    redis.promoteScript nowMs batchSize =
      (((redis.due nowMs).take batchSize).length,
        { redis with
          delayed := (redis.delayed.rangeByScore nowMs batchSize).foldl
            SortedSet.remove redis.delayed
          ready := ((redis.due nowMs).take batchSize).reverse ++
            redis.ready }) := by
  unfold promoteScript
  simp only [foldl_promoteOne]
  rw [SortedSet.rangeByScore_eq]
  rfl

theorem due_promoteScript (batchSize : Nat) :
    (redis.promoteScript nowMs batchSize).2.due nowMs =
      (redis.due nowMs).drop batchSize := by
  rw [promoteScript_eq]
  exact redis.delayed.upTo_removed nowMs batchSize

/-- A batch leaves the drained state where it is. -/
theorem drained_promoteScript (batchSize : Nat) :
    (redis.promoteScript nowMs batchSize).2.drained nowMs =
      redis.drained nowMs := by
  have rest := redis.due_promoteScript nowMs batchSize
  unfold drained
  rw [rest, promoteScript_eq]
  simp only [redis.delayed.above_removed nowMs batchSize]
  rw [← List.append_assoc, ← List.reverse_append, List.take_append_drop]

theorem due_of_promotes_none {batchSize : Nat} (positive : 1 ≤ batchSize)
    (none : (redis.promoteScript nowMs batchSize).1 = 0) :
    redis.due nowMs = [] := by
  rw [promoteScript_eq] at none
  rcases List.take_eq_nil_iff.mp (List.length_eq_zero_iff.mp none) with
    zero | empty
  · omega
  · exact empty

/-- When nothing is due a call changes nothing. -/
theorem promotes_none (empty : redis.due nowMs = []) (batchSize : Nat) :
    redis.promoteScript nowMs batchSize = (0, redis) := by
  unfold promoteScript
  rw [SortedSet.rangeByScore_eq]
  change redis.delayed.upTo nowMs = [] at empty
  rw [empty, List.take_nil]
  rfl

theorem drained_of_due_nil (empty : redis.due nowMs = []) :
    redis.drained nowMs = redis := by
  unfold drained
  rw [empty, SortedSet.above_eq_self empty]
  rfl

theorem drained_afterPromotes (calls : List PromoteCall) :
    (redis.afterPromotes nowMs calls).drained nowMs =
      redis.drained nowMs := by
  induction calls generalizing redis with
  | nil => rfl
  | cons call calls ih =>
      exact (ih _).trans (redis.drained_promoteScript nowMs call.batchSize)

/-- Every call makes progress while something is due. -/
theorem due_afterPromotes (calls : List PromoteCall) :
    ((redis.afterPromotes nowMs calls).due nowMs).length ≤
      (redis.due nowMs).length - calls.length := by
  induction calls generalizing redis with
  | nil => exact le_rfl
  | cons call calls ih =>
      have rest := ih (redis.promoteScript nowMs call.batchSize).2
      have progress := call.positive
      rw [due_promoteScript, List.length_drop] at rest
      rw [List.length_cons]
      apply le_trans rest
      omega

/-! ## What reserving hands out -/

theorem brpoplpush_of_ready {jobId : JobId} {before : List JobId}
    (front : redis.ready = before ++ [jobId]) :
    redis.brpoplpush = (some jobId,
      { redis with ready := before, inflight := jobId :: redis.inflight }) := by
  simp [brpoplpush, front]

/-- Reserving hands the ready list out from its right end. -/
theorem reserves_eq (times : List Int) {redis : Redis}
    (enough : times.length ≤ redis.ready.length) :
    redis.reserves times =
      (redis.ready.reverse.take times.length).map some := by
  induction times generalizing redis with
  | nil => rfl
  | cons nowMs times ih =>
      have nonempty : redis.ready ≠ [] := by
        intro empty
        simp [empty] at enough
      obtain ⟨before, jobId, front⟩ :
          ∃ before jobId, redis.ready = before ++ [jobId] :=
        ⟨_, _, (List.dropLast_append_getLast nonempty).symm⟩
      have reserved : redis.reserve nowMs = (some jobId,
          ({ redis with ready := before, inflight := jobId :: redis.inflight }
            : Redis).zaddLease jobId (nowMs + Queue.visibilityTimeoutMs)) := by
        rw [reserve, brpoplpush_of_ready redis front]
      rw [front] at enough
      simp only [List.length_cons, List.length_append, List.length_nil]
        at enough
      rw [reserves, reserved, ih (by simpa [zaddLease] using enough), front]
      simp [zaddLease]

theorem reserves_all (times : List Int) {redis : Redis}
    (all : times.length = redis.ready.length) :
    redis.reserves times = redis.ready.reverse.map some := by
  have whole : redis.ready.reverse.length = redis.ready.length :=
    List.length_reverse
  rw [reserves_eq times all.le, all, ← whole, List.take_length]

/-- What promotion at `nowMs` makes of `redis`. -/
structure Promoted (redis : Redis) (nowMs : Int) (final : Redis) : Prop where
  delayed : ∀ jobId, final.delayed.score? jobId =
    (redis.delayed.score? jobId).filter fun score => decide (nowMs < score)
  pushed : ∀ jobId, final.ready.count jobId =
    redis.ready.count jobId + if jobId ∈ redis.due nowMs then 1 else 0
  reserved : ∀ times, times.length = final.ready.length →
    final.reserves times = (redis.ready.reverse ++ redis.due nowMs).map some
  elsewhere : { final with
    delayed := redis.delayed, ready := redis.ready } = redis

theorem promoted_drained : redis.Promoted nowMs (redis.drained nowMs) where
  delayed := redis.delayed.score?_above nowMs
  pushed := by
    intro jobId
    have once : (redis.due nowMs).Nodup := redis.delayed.upTo_nodup nowMs
    unfold drained
    rw [List.count_append, List.count_reverse, once.count, Nat.add_comm]
  reserved := by
    intro times all
    rw [reserves_all times all]
    simp [drained]
  elsewhere := rfl

/-- The jobs that are due. -/
structure Lists (redis : Redis) (nowMs : Int) (jobIds : List JobId) :
    Prop where
  member : ∀ jobId, jobId ∈ jobIds ↔
    ∃ score, redis.delayed.score? jobId = some score ∧ score ≤ nowMs
  once : jobIds.Nodup
  ordered : jobIds.Pairwise fun first second => ∀ early late,
    redis.delayed.score? first = some early →
      redis.delayed.score? second = some late →
        early < late ∨ early = late ∧ first ≤ second

theorem lists_due : redis.Lists nowMs (redis.due nowMs) where
  member := redis.delayed.mem_upTo_iff nowMs
  once := redis.delayed.upTo_nodup nowMs
  ordered := redis.delayed.upTo_sorted nowMs

end Redis

/-- However the calls are batched and whoever makes them, promotion at one
time comes to an end, in a state that depends on neither: what was due is
ready behind what was ready before, in the order in which it was due, and
nothing else has changed. -/
theorem promotion_drains_due (redis : Redis) (nowMs : Int) :
    (∀ calls : Nat → PromoteCall,
      ∃ count ≤ (redis.due nowMs).length,
        ((redis.afterPromotes nowMs ((List.range count).map
          calls)).promoteScript nowMs (calls count).batchSize).1 = 0) ∧
      (∀ (calls : List PromoteCall) (last : PromoteCall),
        ((redis.afterPromotes nowMs calls).promoteScript nowMs
          last.batchSize).1 = 0 →
            redis.afterPromotes nowMs (calls ++ [last]) =
              redis.drained nowMs) ∧
      redis.Lists nowMs (redis.due nowMs) ∧
      redis.Promoted nowMs (redis.drained nowMs) := by
  refine ⟨?_, ?_, redis.lists_due nowMs, redis.promoted_drained nowMs⟩
  · intro calls
    refine ⟨(redis.due nowMs).length, le_rfl, ?_⟩
    have left := redis.due_afterPromotes nowMs
      ((List.range (redis.due nowMs).length).map calls)
    rw [List.length_map, List.length_range, Nat.sub_self] at left
    rw [Redis.promotes_none _ nowMs
      (List.length_eq_zero_iff.mp (Nat.le_zero.mp left))]
  · intro calls last none
    have empty := Redis.due_of_promotes_none _ nowMs last.positive none
    calc redis.afterPromotes nowMs (calls ++ [last])
        = ((redis.afterPromotes nowMs calls).promoteScript nowMs
            last.batchSize).2 := by
          rw [Redis.afterPromotes, List.foldl_append]
          rfl
      _ = redis.afterPromotes nowMs calls := by
          rw [Redis.promotes_none _ nowMs empty]
      _ = (redis.afterPromotes nowMs calls).drained nowMs :=
          (Redis.drained_of_due_nil _ nowMs empty).symm
      _ = redis.drained nowMs := redis.drained_afterPromotes nowMs calls

end WebhookDelivery
