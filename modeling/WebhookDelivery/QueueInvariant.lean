import WebhookDelivery.QueueDiscipline
import WebhookDelivery.Places

/-!
# Who holds which job

For every job, the copies of its id in the queue structures and the claims of
the processes fit together: there is at most one copy, at most one process
holds the job, and the claim of that process says where the copy is.
-/

namespace WebhookDelivery

open Concurrency

/-- What the queue structures of one job satisfy on their own. -/
structure Places.Sound (places : Places) : Prop where
  once : places.copies ≤ 1
  leased : places.leases ≤ places.inflight

/-- Where the job of a claim is while the claim is in force. -/
def Claim.Fits (places : Places) : Claim → Prop
  | .popped _ => places.inflight = 1 ∧ places.leases = 0
  | .reserved _ => places.inflight = 1 ∧ places.leases = 1
  | .inserted _ | .replaying _ => places.copies = 0
  | _ => True

/-- The places of one job against the claims on it; an id that was never
issued occurs nowhere. -/
structure Custody (jobId : JobId) (places : Places) (claim : Pid → Claim)
    (issued : Prop) : Prop where
  sound : places.Sound
  fits : ∀ {pid}, (claim pid).holds? = some jobId →
    (claim pid).Fits places
  exclusive : ∀ {pid other}, (claim pid).holds? = some jobId →
    (claim other).holds? = some jobId → pid = other
  unissued : ¬issued →
    places.copies = 0 ∧ ∀ pid, (claim pid).job? ≠ some jobId

namespace Claim

theorem job?_of_holds? {claim : Claim} {jobId : JobId}
    (holds : claim.holds? = some jobId) : claim.job? = some jobId := by
  cases claim <;> first | exact holds | cases holds

/-- The claims that are in force for a job. -/
theorem holds?_cases {claim : Claim} {jobId : JobId}
    (holds : claim.holds? = some jobId) :
    claim = .inserted jobId ∨ claim = .popped jobId ∨
      claim = .reserved jobId ∨ claim = .replaying jobId := by
  cases claim <;> simp_all [holds?, job?]

end Claim

namespace Custody

variable {jobId : JobId} {places now : Places} {claim claims : Pid → Claim}
  {issued issuedNow : Prop} {pid : Pid}

theorem initial :
    Custody jobId (Redis.empty.places jobId) (fun _ => .none) issued where
  sound := ⟨by simp [Redis.places, Redis.empty, Places.copies], by
    simp [Redis.places, Redis.empty]⟩
  fits held := by cases held
  exclusive held := by cases held
  unissued _ := ⟨by simp [Redis.places, Redis.empty, Places.copies], by
    simp [Claim.job?]⟩

theorem issued_of_copies (custody : Custody jobId places claim issued)
    (present : 0 < places.copies) : issued := by
  by_contra unknown
  have := (custody.unissued unknown).1
  omega

theorem issued_of_claim (custody : Custody jobId places claim issued)
    (held : (claim pid).holds? = some jobId) : issued := by
  by_contra unknown
  exact (custody.unissued unknown).2 pid (Claim.job?_of_holds? held)

/-- A job waiting in `ready`, `delayed` or `dlq` is held by nobody. -/
theorem unheld_of_waiting (custody : Custody jobId places claim issued)
    (waiting : 0 < places.ready + places.delayed + places.dlq) (pid : Pid) :
    (claim pid).holds? ≠ some jobId := by
  intro held
  have once := custody.sound.once
  have fits := custody.fits held
  unfold Places.copies at once
  rcases Claim.holds?_cases held with same | same | same | same <;>
    simp only [same, Claim.Fits, Places.copies] at fits <;> omega

/-- Nothing happens to a job when its places stay and its claims stay or
end. -/
theorem unmoved (custody : Custody jobId places claim issued)
    (kept : ∀ pid, claims pid = claim pid ∨
      (claims pid).holds? ≠ some jobId ∧
        ((claims pid).job? = some jobId → (claim pid).job? = some jobId))
    (grows : issued → issuedNow) :
    Custody jobId places claims issuedNow where
  sound := custody.sound
  fits {pid} held := by
    rcases kept pid with same | ⟨dropped, _⟩
    · rw [same] at held ⊢
      exact custody.fits held
    · exact absurd held dropped
  exclusive {pid other} held heldToo := by
    rcases kept pid with same | ⟨dropped, _⟩
    · rcases kept other with same' | ⟨dropped, _⟩
      · rw [same] at held
        rw [same'] at heldToo
        exact custody.exclusive held heldToo
      · exact absurd heldToo dropped
    · exact absurd held dropped
  unissued unknown := by
    obtain ⟨absent, unclaimed⟩ :=
      custody.unissued fun known => unknown (grows known)
    refine ⟨absent, fun pid about => unclaimed pid ?_⟩
    rcases kept pid with same | ⟨_, about'⟩
    · rwa [same] at about
    · exact about' about

/-- Claims that end concern no job. -/
theorem dropped (custody : Custody jobId places claim issued)
    (kept : ∀ pid, claims pid = claim pid ∨ claims pid = .none) :
    Custody jobId places claims issued :=
  custody.unmoved (fun pid => (kept pid).imp_right fun none => by
    simp [none, Claim.holds?, Claim.job?]) id

/-- A job that no other process holds may be moved, as long as its new places
fit the new claim. -/
theorem moved (sound : now.Sound)
    (alone : ∀ other, other ≠ pid → (claims other).holds? ≠ some jobId)
    (fits : (claims pid).holds? = some jobId → (claims pid).Fits now)
    (known : issuedNow) :
    Custody jobId now claims issuedNow where
  sound := sound
  fits {other} held := by
    by_cases own : other = pid
    · subst own
      exact fits held
    · exact absurd held (alone other own)
  exclusive {first second} held heldToo := by
    have only : ∀ {other}, (claims other).holds? = some jobId →
        other = pid := fun held => by
      by_contra distinct
      exact alone _ distinct held
    rw [only held, only heldToo]
  unissued unknown := absurd known unknown

/-- A job that nobody holds may be moved anywhere. -/
theorem moved_unheld (sound : now.Sound)
    (unheld : ∀ pid, (claims pid).holds? ≠ some jobId)
    (known : issuedNow) :
    Custody jobId now claims issuedNow where
  sound := sound
  fits held := absurd held (unheld _)
  exclusive held := absurd held (unheld _)
  unissued unknown := absurd known unknown

end Custody

/-! ## What a call may find -/

/-- A release script that finds nothing to release and leaves no further copy
behind. -/
def Call.FindsNothing (places : Places) : Call → Prop
  | .ack _ => places.inflight = 0
  | .retryLater _ _ => places.inflight = 0 ∧ places.delayed = 1
  | .deadLetter _ => False
  | _ => True

instance (places : Places) : DecidablePred (Call.FindsNothing places) :=
  fun call => by
    induction call using Call.casesOn <;> unfold Call.FindsNothing <;>
      infer_instance

theorem Call.findsNothing_of_releases {places : Places} {call : Call}
    (none : call.releases? = none) : call.FindsNothing places := by
  cases call <;> trivial

theorem Places.release_of_absent {places : Places} (sound : places.Sound)
    (absent : places.inflight = 0) : places.release = places := by
  have unleased : places.leases = 0 := by
    have := sound.leased
    omega
  cases places
  simp_all [Places.release]

theorem Call.moves_of_findsNothing {places : Places} {jobId : JobId}
    {call : Call} (sound : places.Sound)
    (releases : call.releases? = some jobId)
    (nothing : call.FindsNothing places)
    (outcome : Except AppError call.Reply) :
    call.moves jobId places outcome = places := by
  cases call <;> cases releases
  · simp [Call.moves, Places.release_of_absent sound nothing]
  · obtain ⟨absent, delayed⟩ := nothing
    simp [Call.moves, Places.release_of_absent sound absent, ← delayed]
  · exact nothing.elim

/-- The job a call with this outcome takes up, moves or lets go. -/
def Call.target? : (call : Call) → Except AppError call.Reply →
    Option JobId
  | .push id, _ => some id
  | .pushDelayed id _, _ => some id
  | .brpoplpush, .ok (some id) => some id
  | .zaddLease id _, _ => some id
  | .ack id, _ => some id
  | .retryLater id _, _ => some id
  | .deadLetter id, _ => some id
  | .popDlq, .ok (some id) => some id
  | .insertJob _, .ok job => some job.id
  | _, _ => none

theorem Call.moves_of_target {call : Call}
    {outcome : Except AppError call.Reply} {jobId : JobId}
    (unrelated : call.target? outcome ≠ some jobId) (places : Places) :
    call.moves jobId places outcome = places := by
  unfold target? at unrelated
  split at unrelated <;> simp_all [moves]

theorem Call.schedules_of_target {call : Call}
    {outcome : Except AppError call.Reply} {jobId : JobId}
    (unrelated : call.target? outcome ≠ some jobId) (score : Option Int) :
    call.schedules jobId score = score := by
  cases call with
  | pushDelayed id time | retryLater id time =>
      have other : id ≠ jobId := fun same => unrelated (same ▸ rfl)
      simp only [schedules, other, if_false]
  | _ => rfl

theorem Claim.after_of_target {call : Call}
    {outcome : Except AppError call.Reply} {jobId : JobId}
    (unrelated : call.target? outcome ≠ some jobId) (claim : Claim) :
    claim.after call outcome = claim ∨
      (claim.after call outcome).job? ≠ some jobId := by
  unfold Claim.after
  split <;> simp_all [Call.target?, Claim.job?]

theorem ready_of_brpoplpush {redis : Redis} {jobId : JobId}
    (popped : redis.brpoplpush.1 = some jobId) :
    0 < (redis.places jobId).ready := by
  unfold Redis.brpoplpush at popped
  cases last : redis.ready.getLast? with
  | none =>
      rw [last] at popped
      cases popped
  | some id =>
      rw [last] at popped
      cases popped
      exact List.count_pos_iff.mpr (List.mem_of_getLast? last)

theorem dlq_of_popDlq {redis : Redis} {jobId : JobId}
    (popped : redis.popDlq.1 = some jobId) :
    0 < (redis.places jobId).dlq := by
  unfold Redis.popDlq at popped
  cases last : redis.dlq.getLast? with
  | none =>
      rw [last] at popped
      cases popped
  | some id =>
      rw [last] at popped
      cases popped
      exact List.count_pos_iff.mpr (List.mem_of_getLast? last)

/-- A row is inserted under an id that was never issued. -/
theorem fresh_of_insertJob {jsonb : String → Option String}
    {maxAttempts : Nat} {uuid : JobId} {now : Int} {input : JobInput}
    {db : Postgres} {job : Job}
    (inserted : (db.insertJob jsonb maxAttempts uuid now input).1 = .ok job) :
    job.id ∉ db.issued ∧
      job.id ∈ (db.insertJob jsonb maxAttempts uuid now input).2.issued := by
  rcases db.insertJob_cases jsonb maxAttempts uuid now input with
    ⟨failure, raised⟩ | ⟨payload, _, unissued, _, done⟩
  · rw [raised] at inserted
    cases inserted
  · rw [done] at inserted ⊢
    cases inserted
    exact ⟨unissued, List.mem_cons_self⟩

theorem exec_issued (deployment : Deployment) (choice : Choice)
    (call : Call) (store : Store) {jobId : JobId}
    (known : jobId ∈ store.db.issued) :
    jobId ∈ (exec deployment choice call store).2.db.issued := by
  cases call with
  | insertJob input =>
      simp only [exec]
      rcases store.db.insertJob_cases deployment.jsonb deployment.maxAttempts
        choice.uuid choice.now input with
        ⟨failure, raised⟩ | ⟨_, _, _, _, done⟩
      · rw [raised]
        exact known
      · rw [done]
        exact List.mem_cons_of_mem _ known
  | updateState update =>
      simp only [exec]
      rcases store.db.updateState_cases choice.now update with
        ⟨_, done⟩ | ⟨row, _, ⟨failure, done⟩ | ⟨_, done⟩⟩ <;>
        (rw [done]; exact known)
  | resetForReplay id =>
      simp only [exec]
      rcases store.db.resetForReplay_cases choice.now id with
        ⟨_, done⟩ | ⟨row, _, done⟩ <;> (rw [done]; exact known)
  | insertAttempt record =>
      simp only [exec, Postgres.insertAttempt]
      split
      · exact known
      · split
        · exact known
        · split <;> exact known
  | _ => exact known

namespace Custody

variable {jobId : JobId} {places : Places} {claim claims : Pid → Claim}
  {issued issuedNow : Prop} {pid : Pid}

/-- The claims other than the acting process' own. -/
private theorem kept_of_own
    (others : ∀ other, other ≠ pid → claims other = claim other)
    (own : claims pid = claim pid ∨ (claims pid).job? ≠ some jobId) :
    ∀ other, claims other = claim other ∨
      (claims other).holds? ≠ some jobId ∧
        ((claims other).job? = some jobId →
          (claim other).job? = some jobId) := by
  intro other
  by_cases same : other = pid
  · subst same
    rcases own with kept | unrelated
    · exact .inl kept
    · exact .inr ⟨fun held => unrelated (Claim.job?_of_holds? held),
        fun about => absurd about unrelated⟩
  · exact .inl (others other same)

/-- A call that is not about the job leaves its custody alone. -/
private theorem elsewhere {store : Store} {deployment : Deployment}
    {choice : Choice} {call : Call}
    (custody : Custody jobId (store.redis.places jobId) claim
      (jobId ∈ store.db.issued))
    (unrelated :
      call.target? (exec deployment choice call store).1 ≠ some jobId)
    (others : ∀ other, other ≠ pid → claims other = claim other)
    (own : claims pid = (claim pid).after call
        (exec deployment choice call store).1 ∨ claims pid = .none) :
    Custody jobId
      ((exec deployment choice call store).2.redis.places jobId) claims
      (jobId ∈ (exec deployment choice call store).2.db.issued) := by
  rw [exec_places, Call.moves_of_target unrelated]
  refine custody.unmoved (kept_of_own others ?_)
    (exec_issued deployment choice call store)
  rcases own with after | none
  · rw [after]
    exact Claim.after_of_target unrelated _
  · exact .inr (by simp [none, Claim.job?])

/-- Where the job of a claim in force is. -/
theorem fits_of {held : Claim}
    (custody : Custody jobId places claim issued) (same : claim pid = held)
    (holds : held.holds? = some jobId) :
    (claim pid).holds? = some jobId ∧ held.Fits places := by
  subst same
  exact ⟨holds, custody.fits holds⟩

private theorem fits_own {after : Claim}
    (own : claims pid = after ∨ claims pid = .none)
    (fits : after.Fits places) : (claims pid).Fits places := by
  rcases own with same | same <;> rw [same]
  · exact fits
  · trivial

/-- A release ends the claim that is in force, or finds nothing to release. -/
private theorem released {call : Call} {outcome : Except AppError call.Reply}
    (custody : Custody jobId places claim issued)
    (works : Claim.Works jobId (claim pid))
    (fenced : claim pid = .superseded jobId → call.FindsNothing places)
    (releases : call.releases? = some jobId)
    (others : ∀ other, other ≠ pid → claims other = claim other)
    (own : claims pid = .none) (grows : issued → issuedNow) :
    Custody jobId (call.moves jobId places outcome) claims issuedNow := by
  rcases works with reserved | superseded
  · obtain ⟨held, inflight, leases⟩ := custody.fits_of reserved rfl
    have once := custody.sound.once
    refine @moved _ _ _ _ pid ?_ ?_ (by simp [own, Claim.holds?, Claim.job?])
      (grows (custody.issued_of_claim held))
    · cases call <;> cases releases <;> constructor <;>
        simp only [Call.moves, Places.release, Places.copies, if_true]
          at once ⊢ <;> omega
    · intro other distinct heldToo
      rw [others other distinct] at heldToo
      exact distinct (custody.exclusive heldToo held)
  · rw [Call.moves_of_findsNothing custody.sound releases
      (fenced superseded)]
    exact custody.unmoved
      (kept_of_own others (.inr (by simp [own, Claim.job?]))) grows

/-- The process that holds the job is the only one, whatever it does next. -/
private theorem held_alone (custody : Custody jobId places claim issued)
    (held : (claim pid).holds? = some jobId)
    (others : ∀ other, other ≠ pid → claims other = claim other) :
    ∀ other, other ≠ pid → (claims other).holds? ≠ some jobId := by
  intro other distinct heldToo
  rw [others other distinct] at heldToo
  exact distinct (custody.exclusive heldToo held)

private theorem unheld_by_others
    (unheld : ∀ other, (claim other).holds? ≠ some jobId)
    (others : ∀ other, other ≠ pid → claims other = claim other) :
    ∀ other, other ≠ pid → (claims other).holds? ≠ some jobId := by
  intro other distinct held
  exact unheld other (others other distinct ▸ held)

/-- A process takes a job that waits in `ready` or `dlq`. -/
private theorem taken {after : Places} {held : Claim}
    (custody : Custody jobId places claim issued)
    (waiting : 0 < places.ready + places.dlq) (sound : after.Sound)
    (fits : held.Fits after)
    (others : ∀ other, other ≠ pid → claims other = claim other)
    (own : claims pid = held ∨ claims pid = .none)
    (grows : issued → issuedNow) :
    Custody jobId after claims issuedNow := by
  have unheld := custody.unheld_of_waiting (by omega)
  have present : 0 < places.copies := by
    unfold Places.copies
    omega
  exact moved sound (unheld_by_others unheld others)
    (fun _ => fits_own own fits) (grows (custody.issued_of_copies present))

/-- One call of a process that keeps to the claim discipline. -/
theorem performed {store : Store} {deployment : Deployment} {choice : Choice}
    {call : Call}
    (custody : Custody jobId (store.redis.places jobId) claim
      (jobId ∈ store.db.issued))
    (permits : (claim pid).Permits call)
    (fenced : claim pid = .superseded jobId →
      call.FindsNothing (store.redis.places jobId))
    (others : ∀ other, other ≠ pid → claims other = claim other)
    (own : claims pid = (claim pid).after call
        (exec deployment choice call store).1 ∨ claims pid = .none) :
    Custody jobId
      ((exec deployment choice call store).2.redis.places jobId) claims
      (jobId ∈ (exec deployment choice call store).2.db.issued) := by
  by_cases about :
      call.target? (exec deployment choice call store).1 = some jobId
  swap
  · exact custody.elsewhere about others own
  have grows := @exec_issued deployment choice call store jobId
  have ready := @ready_of_brpoplpush store.redis jobId
  have dead := @dlq_of_popDlq store.redis jobId
  have once := custody.sound.once
  have leased := custody.sound.leased
  rw [exec_places]
  generalize store.redis.places jobId = places at *
  cases call with
  | push id =>
      cases about
      have held : (claim pid).holds? = some jobId ∧ places.copies = 0 :=
        permits.elim (custody.fits_of · rfl) (custody.fits_of · rfl)
      refine moved ?_ (custody.held_alone held.1 others)
        (fun _ => fits_own own trivial)
        (grows (custody.issued_of_claim held.1))
      have absent := held.2
      constructor <;>
        simp only [Call.moves, Places.copies, if_true] at absent ⊢ <;> omega
  | pushDelayed id runAtMs =>
      cases about
      obtain ⟨held, absent⟩ := custody.fits_of permits rfl
      refine moved ?_ (custody.held_alone held others)
        (fun _ => fits_own own trivial)
        (grows (custody.issued_of_claim held))
      constructor <;>
        simp only [Claim.Fits, Call.moves, Places.copies, if_true]
          at absent ⊢ <;> omega
  | brpoplpush =>
      simp only [exec] at about own grows ⊢
      cases popped : store.redis.brpoplpush.1 with
      | none =>
          rw [popped] at about
          cases about
      | some id =>
          rw [popped] at about own
          cases about
          have waiting := ready popped
          refine custody.taken (by omega) ?_ ?_ others own grows
          · constructor <;>
              simp only [Call.moves, Places.copies, if_true] at once ⊢ <;>
              omega
          · simp only [Call.moves, if_true]
            constructor <;> simp only [Places.copies] at once ⊢ <;> omega
  | zaddLease id expiry =>
      cases about
      obtain ⟨held, inflight, unleased⟩ := custody.fits_of permits rfl
      refine moved ?_ (custody.held_alone held others)
        (fun _ => fits_own own ?_)
        (grows (custody.issued_of_claim held))
      · constructor <;>
          simp only [Call.moves, Places.copies, if_true] at once ⊢ <;> omega
      · simp only [Call.moves, if_true]
        exact ⟨inflight, rfl⟩
  | ack id =>
      cases about
      exact custody.released permits fenced rfl others
        (own.elim (fun h => h) (fun h => h)) grows
  | retryLater id runAtMs =>
      cases about
      exact custody.released permits fenced rfl others
        (own.elim (fun h => h) (fun h => h)) grows
  | deadLetter id =>
      cases about
      exact custody.released permits fenced rfl others
        (own.elim (fun h => h) (fun h => h)) grows
  | popDlq =>
      simp only [exec] at about own grows ⊢
      cases popped : store.redis.popDlq.1 with
      | none =>
          rw [popped] at about
          cases about
      | some id =>
          rw [popped] at about own
          cases about
          have waiting := dead popped
          refine custody.taken (by omega) ?_ ?_ others own grows
          · constructor <;>
              simp only [Call.moves, Places.copies, if_true] at once ⊢ <;>
              omega
          · show Places.copies _ = 0
            simp only [Call.moves, Places.copies, if_true] at once ⊢
            omega
  | insertJob input =>
      simp only [exec] at about own ⊢
      cases inserted : (store.db.insertJob deployment.jsonb
          deployment.maxAttempts choice.uuid choice.now input).1 with
      | error failure =>
          rw [inserted] at about
          cases about
      | ok job =>
          rw [inserted] at about own
          cases about
          obtain ⟨fresh, known⟩ := fresh_of_insertJob inserted
          obtain ⟨absent, unclaimed⟩ := custody.unissued fresh
          have unheld : ∀ other, (claim other).holds? ≠ some job.id :=
            fun other held => unclaimed other (Claim.job?_of_holds? held)
          exact moved custody.sound (unheld_by_others unheld others)
            (fun _ => fits_own own absent) known
  | _ => cases about

theorem promoted {redis : Redis} (nowMs : Int) (batchSize : Nat)
    (custody : Custody jobId (redis.places jobId) claim issued) :
    Custody jobId ((redis.promoteScript nowMs batchSize).2.places jobId)
      claim issued := by
  rw [Redis.places_promoteScript]
  split
  next due =>
    have delayed := Redis.delayed_of_mem_range due
    have once := custody.sound.once
    have leased := custody.sound.leased
    have present : 0 < (redis.places jobId).copies := by
      unfold Places.copies
      omega
    refine moved_unheld ?_ (custody.unheld_of_waiting (by omega))
      (custody.issued_of_copies present)
    constructor <;> simp only [Places.copies] at once ⊢ <;> omega
  · exact custody

theorem reaped {redis : Redis} (nowMs : Int) (batchSize : Nat)
    (custody : Custody jobId (redis.places jobId) claim issued) :
    Custody jobId ((redis.reapScript nowMs batchSize).2.places jobId)
      (fun pid => (claim pid).reaped
        (redis.leases.rangeByScore nowMs batchSize)) issued := by
  rw [Redis.places_reapScript]
  split
  next expired =>
    have leased := Redis.leased_of_mem_range expired
    have once := custody.sound.once
    have within := custody.sound.leased
    have present : 0 < (redis.places jobId).copies := by
      unfold Places.copies
      omega
    refine moved_unheld ?_ ?_ (custody.issued_of_copies present)
    · constructor <;>
        simp only [Places.release, Places.copies] at once ⊢ <;> omega
    · intro pid held
      cases same : claim pid with
      | reserved id =>
          simp only [same, Claim.reaped] at held
          split at held
          · cases held
          next unexpired =>
            cases held
            exact unexpired expired
      | popped id =>
          simp only [same, Claim.reaped] at held
          have := (custody.fits_of same held).2.2
          omega
      | inserted id =>
          simp only [same, Claim.reaped] at held
          have absent : (redis.places jobId).copies = 0 :=
            (custody.fits_of same held).2
          omega
      | replaying id =>
          simp only [same, Claim.reaped] at held
          have absent : (redis.places jobId).copies = 0 :=
            (custody.fits_of same held).2
          omega
      | none | superseded id =>
          simp only [same, Claim.reaped] at held
          cases held
  next unexpired =>
    refine custody.unmoved (fun pid => ?_) id
    cases claim pid with
    | reserved id =>
        by_cases listed : id ∈ redis.leases.rangeByScore nowMs batchSize
        · refine .inr ?_
          have distinct : id ≠ jobId := fun same => unexpired (same ▸ listed)
          simp [Claim.reaped, listed, Claim.holds?, Claim.job?, distinct]
        · simp [Claim.reaped, listed]
    | _ => exact .inl rfl

end Custody

/-! ## The invariant of the system -/

/-- The places of a job in a state of the system. -/
def State.places (state : State) (jobId : JobId) : Places :=
  state.store.redis.places jobId

/-- Every process keeps to the claim discipline, and every job is in the
custody of at most one of them. -/
structure QueueInvariant (state : State) : Prop where
  disciplined : state.Disciplined queueDiscipline (fun _ claim _ => claim)
    QueueDiscipline.Settles
  custody : ∀ jobId, Custody jobId (state.places jobId) state.claim
    (jobId ∈ state.store.db.issued)

/-- The release script that a process whose claim the reaper has overruled
runs in this step, with the job of the claim. -/
def overruledRelease? (state : State) (action : Action) :
    Option (JobId × Call) := do
  let pid ← action.performer?
  let call ← state.pending? pid
  let jobId ← call.releases?
  if state.claim pid = .superseded jobId then some (jobId, call) else none

/-- Steps in which an overruled worker finds nothing to release. -/
def Unharmed (state : State) (action : Action) : Prop :=
  ∀ release ∈ overruledRelease? state action,
    release.2.FindsNothing (state.places release.1)

instance (state : State) (action : Action) :
    Decidable (Unharmed state action) :=
  inferInstanceAs (Decidable (∀ release ∈ overruledRelease? state action,
    release.2.FindsNothing (state.places release.1)))

theorem overruledRelease?_eq_some {state : State} {action : Action}
    {jobId : JobId} {call : Call} :
    overruledRelease? state action = some (jobId, call) ↔
      ∃ pid, action.performer? = some pid ∧ state.pending? pid = some call ∧
        call.releases? = some jobId ∧ state.claim pid = .superseded jobId := by
  simp only [overruledRelease?, Option.bind_eq_bind, Option.bind_eq_some_iff]
  constructor
  · rintro ⟨pid, performs, other, pending, id, releases, found⟩
    split at found
    next superseded =>
      cases found
      exact ⟨pid, performs, pending, releases, superseded⟩
    · cases found
  · rintro ⟨pid, performs, pending, releases, superseded⟩
    exact ⟨pid, performs, call, pending, jobId, releases,
      if_pos superseded⟩

/-- Between two calls of a process, its claim is at most overruled. -/
theorem overruled_of_other {deployment : Deployment} {before after : State}
    {action : Action} {pid : Pid}
    (taken : step deployment before action = some after)
    (other : action.actor? ≠ some pid) :
    (before.claim pid).Overruled (after.claim pid) := by
  rcases claim_of_other taken other with same | ⟨_, _, _, reaped⟩
  · exact .inl same
  · rw [reaped]
    exact Claim.overruled_reaped _ _

/-- The claim discipline looks at the claims alone. -/
theorem queueDiscipline_respects {deployment : Deployment}
    {before after : State} {action : Action}
    (taken : step deployment before action = some after) :
    Respects deployment queueDiscipline (fun _ claim _ => claim) before action
      after where
  performed _ _ _ _ := ⟨rfl, exec_answers _ _ _ _⟩
  unanswered _ _ := ⟨trivial, queueDiscipline.rely_refl _⟩
  failed _ _ := ⟨trivial, queueDiscipline.rely_refl _⟩
  others other := overruled_of_other taken other

namespace QueueInvariant

theorem initial : QueueInvariant State.initial where
  disciplined _ _ _ found := by cases found
  custody _ := Custody.initial

variable {deployment : Deployment} {before after : State} {action : Action}

theorem permits {state : State} (invariant : QueueInvariant state)
    {pid : Pid} {call : Call} (pending : state.pending? pid = some call) :
    (state.claim pid).Permits call :=
  invariant.disciplined.allowed pending

/-- A process goes on with the claim its call left it with, or with none. -/
theorem claim_of_resumes {pid : Pid} {choice : Choice} {process : Process}
    {call : Call} {next : call.Reply → Async Result}
    {rescue : AppError → Async Result}
    {resumed : Except AppError call.Reply → Process}
    (resumes : Resumes deployment pid choice process next rescue action
      resumed) (outcome : Except AppError call.Reply) :
    (resumed outcome).claim = process.claim.after call outcome ∨
      (resumed outcome).claim = .none := by
  cases resumes with
  | replied => exact Process.proceed_claim
  | unanswered onStore =>
      rcases Process.proceed_claim with same | none
      · rw [Process.unanswered, same]
        exact Claim.lost_cases _
      · exact .inr none

theorem step (invariant : QueueInvariant before)
    (unharmed : Unharmed before action)
    (taken : WebhookDelivery.step deployment before action = some after) :
    QueueInvariant after where
  disciplined :=
    invariant.disciplined.step taken
      (fun _ _ _ _ => QueueDiscipline.main_follows deployment _)
      (queueDiscipline_respects taken)
  custody := by
    intro jobId
    have custody := invariant.custody jobId
    cases steps_of_step taken with
    | start unused =>
        exact custody.dropped (before.claim_setProcess
          (.inr (Process.proceed_claim.elim id id)))
    | @performed _ pid choice process call next rescue resumed found running
        connected resumes =>
        have permits := invariant.permits
          (State.pending?_of_running found running)
        have fenced : before.claim pid = .superseded jobId →
            call.FindsNothing (before.places jobId) := by
          intro superseded
          cases releases : call.releases? with
          | none => exact Call.findsNothing_of_releases releases
          | some id =>
              have about := (Claim.works_of_releases permits releases).job?
              rw [superseded] at about
              cases about
              exact unharmed (jobId, call) (overruledRelease?_eq_some.mpr
                ⟨pid, resumes.performer?.1,
                  State.pending?_of_running found running, releases,
                  superseded⟩)
        refine custody.performed permits fenced
          (fun other distinct => State.claim_congr
            (before.perform_of_ne _ _ _ _ _ distinct)) ?_
        rw [State.claim_of_found (before.perform_self _ _ _ _ _),
          State.claim_of_found found]
        exact claim_of_resumes resumes _
    | @failed pid failure process call next rescue found running =>
        refine custody.dropped (before.claim_setProcess ?_)
        rw [State.claim_of_found found]
        rcases Process.proceed_claim with same | none
        · rw [Process.failed, same]
          exact Claim.lost_cases _
        · exact .inr none
    | crashed found live =>
        exact custody.dropped (before.claim_setProcess (.inr rfl))
    | shutdown found =>
        refine custody.dropped (before.claim_setProcess (.inl ?_))
        rw [Process.shutdown_claim, State.claim_of_found found]
    | promoted => exact custody.promoted _ _
    | @reaped nowMs batchSize =>
        have claims : (before.reap nowMs batchSize).claim = _ :=
          funext (before.claim_reap nowMs batchSize)
        rw [claims]
        exact custody.reaped _ _
    | ticked => exact custody
    | registered unused =>
        exact custody.unmoved (fun _ => .inl rfl) (List.mem_cons_of_mem _)
    | deleted => exact custody

end QueueInvariant

/-! ## Where claims come from -/

/-- The call that brings about a claim. -/
def Claim.madeBy : Claim → Call → Bool
  | .none, _ | .inserted _, .insertJob _ | .popped _, .brpoplpush
  | .reserved _, .zaddLease _ _ | .superseded _, .zaddLease _ _
  | .replaying _, .popDlq => true
  | _, _ => false

theorem Claim.madeBy_after (claim : Claim) (call : Call)
    (outcome : Except AppError call.Reply) :
    claim.after call outcome = claim ∨
      (claim.after call outcome).madeBy call := by
  unfold after
  split <;> first | exact .inr rfl | exact .inl rfl

/-- Every claim is due to a call that its process has completed. -/
def State.Accounted (state : State) : Prop :=
  ∀ pid, state.claim pid = .none ∨
    ∃ event ∈ state.history, event.pid = pid ∧
      (state.claim pid).madeBy event.call

theorem State.Accounted.initial : State.initial.Accounted :=
  fun _ => .inl rfl

theorem State.Accounted.step {deployment : Deployment} {before after : State}
    {action : Action} (accounted : before.Accounted)
    (taken : WebhookDelivery.step deployment before action = some after) :
    after.Accounted := by
  intro pid
  have earlier : ∀ event ∈ before.history, event ∈ after.history := by
    intro event member
    cases steps_of_step taken with
    | performed => exact List.mem_cons_of_mem _ member
    | _ => exact member
  -- A claim is accounted for when it is none, stays or is overruled.
  have kept : after.claim pid = .none ∨
      (before.claim pid).Overruled (after.claim pid) →
        after.claim pid = .none ∨ ∃ event ∈ after.history, event.pid = pid ∧
          (after.claim pid).madeBy event.call := by
    rintro (none | same | ⟨jobId, reserved, same⟩)
    · exact .inl none
    · rw [same]
      exact (accounted pid).imp_right fun ⟨event, member, made⟩ =>
        ⟨event, earlier event member, made⟩
    · obtain none | ⟨event, member, own, made⟩ := accounted pid
      · rw [reserved] at none
        cases none
      · refine .inr ⟨event, earlier event member, own, ?_⟩
        rw [reserved] at made
        rw [same]
        cases called : event.call <;> rw [called] at made <;>
          first | rfl | cases made
  by_cases acts : action.actor? = some pid
  swap
  · exact kept (.inr (overruled_of_other taken acts))
  cases steps_of_step taken with
  | start unused =>
      cases acts
      refine kept (.inl ?_)
      rw [State.claim_setProcess_self]
      exact Process.proceed_claim.elim id id
  | crashed =>
      cases acts
      exact kept (.inl (State.claim_setProcess_self _ _ _))
  | failed found =>
      cases acts
      rw [State.claim_setProcess_self] at kept ⊢
      rw [State.claim_of_found found] at kept
      apply kept
      rcases Process.proceed_claim with same | none
      · rw [Process.failed, same]
        exact (Claim.lost_cases _).symm.imp_right .inl
      · exact .inl none
  | @performed _ actor choice process call next rescue resumed found running
      connected resumes =>
      rw [resumes.performer?.2] at acts
      cases acts
      rw [State.claim_of_found (before.perform_self _ _ _ _ _)] at kept ⊢
      rw [State.claim_of_found found] at kept
      rcases QueueInvariant.claim_of_resumes resumes
        (exec deployment choice call before.store).1 with same | none
      · rcases Claim.madeBy_after process.claim call
          (exec deployment choice call before.store).1 with stays | made
        · exact kept (.inr (.inl (same.trans stays)))
        · rw [same]
          exact .inr ⟨_, List.mem_cons_self, rfl, made⟩
      · exact kept (.inl none)
  | shutdown | promoted | reaped | ticked | registered | deleted => cases acts

end WebhookDelivery
