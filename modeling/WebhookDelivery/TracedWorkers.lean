import WebhookDelivery.TracedRequests

/-!
# The order of calls of workers and replays

A worker acts on the job it has popped, and spends no attempt before it has
recorded it; a replay acts on the job it has drawn.
-/

namespace WebhookDelivery

open Concurrency Program Discipline

namespace TraceDiscipline

variable {strict : Prop} {known : List Event → Prop} {view : Trace}
  {Value Next : Type} {program : Async Value}

/-- No attempt has been spent that has not been recorded. -/
def Balanced (own : List Event) : Prop :=
  ∀ jobId, spentOf own jobId ≤ recordedOf own jobId

/-- A worker has claimed the job, and spent no attempt without recording
it. -/
structure Working (jobId : JobId) (own : List Event) : Prop where
  popped : did own Event.popped? jobId
  balanced : Balanced own

/-- An attempt of the job has been recorded that has not been spent. -/
structure Ahead (jobId : JobId) (own : List Event) : Prop extends
    Working jobId own where
  ahead : spentOf own jobId < recordedOf own jobId

variable {jobId : JobId}

theorem Working.cons {own : List Event} {event : Event}
    (working : Working jobId own) (unspent : event.spent? = none) :
    Working jobId (event :: own) where
  popped := (did_cons ..).mpr (.inr working.popped)
  balanced other := by
    have before := working.balanced other
    simp only [spentOf, recordedOf, List.countP_cons, unspent] at before ⊢
    simp only [reduceCtorEq, decide_false, Bool.false_eq_true, if_false]
    omega

theorem Ahead.cons {own : List Event} {event : Event}
    (ahead : Ahead jobId own) (unspent : event.spent? = none) :
    Ahead jobId (event :: own) where
  toWorking := ahead.toWorking.cons unspent
  ahead := by
    have before := ahead.ahead
    simp only [spentOf, recordedOf, List.countP_cons, unspent] at before ⊢
    simp only [reduceCtorEq, decide_false, Bool.false_eq_true, if_false]
    omega

/-- What a worker keeps knowing as long as it spends no attempt. -/
structure Lasting (jobId : JobId) (known : List Event → Prop) : Prop where
  working : ∀ own, known own → Working jobId own
  cons : ∀ own event, known own → Event.spent? event = none →
    known (event :: own)

theorem lasting_working (jobId : JobId) : Lasting jobId (Working jobId) :=
  ⟨fun _ => id, fun _ _ working unspent => working.cons unspent⟩

theorem lasting_ahead (jobId : JobId) : Lasting jobId (Ahead jobId) :=
  ⟨fun _ => Ahead.toWorking, fun _ _ ahead unspent => ahead.cons unspent⟩

/-- A worker has been given a number for the next attempt of the job. -/
structure Numbered (jobId : JobId) (number : Nat) (own : List Event) : Prop
    extends Working jobId own where
  numbered : did own Event.numbered? (jobId, number)

theorem lasting_numbered (jobId : JobId) (number : Nat) :
    Lasting jobId (Numbered jobId number) where
  working _ numbered := numbered.toWorking
  cons _ _ numbered unspent :=
    ⟨numbered.toWorking.cons unspent,
      (did_cons ..).mpr (.inr numbered.numbered)⟩

theorem Event.spent?_of_spares {pid : Pid} {call : Call}
    {outcome : Except AppError call.Reply} (inert : call.inert) :
    Event.spent? ⟨pid, call, outcome⟩ = none := by
  cases call <;> first | rfl | cases inert

/-- Programs that neither claim, settle nor release a job. -/
theorem follows_labour (lasting : Lasting jobId known)
    (within : program.Within fun call => call.gates ∨ call.sends jobId)
    (knows : Knows .worker known view) :
    (traceDiscipline strict).Follows
      (fun now _ => Knows .worker known now) program view := by
  refine Follows.of_within (Knows .worker known) within ?_ ?_ ?_ ?_
    (fun _ _ holds => holds) knows
  · rintro view _ knows rfl
    exact knows
  · intro view call knows permitted
    refine knows.allowed fun own holds => ?_
    rcases permitted with gates | sends
    · cases call <;> first | exact gates | cases gates
    · cases call with
      | fetch request =>
          have same : request.jobId = jobId := by
            simpa [Call.sends, Call.delivers] using sends
          show did own Event.popped? request.jobId
          rw [same]
          exact (lasting.working own holds).popped
      | now | responseText | nextAttemptNumber _ => rfl
      | _ => cases sends
  · exact fun knows => knows.lost
  · intro view call outcome after knows permitted effect
    have inert : call.inert := by
      rcases permitted with gates | sends
      · exact Call.inert_of_gates gates
      · exact Call.inert_of_delivers (Call.delivers_of_sends sends)
    apply (knows.effect effect).mono
    rintro _ ⟨pid, earlier, rfl, holds⟩
    exact lasting.cons _ _ holds (Event.spent?_of_spares inert)

theorem gates_follow (lasting : Lasting jobId known)
    (knows : Knows .worker known view)
    (within : program.Within fun call => call.gates) :
    (traceDiscipline strict).Follows
      (fun now _ => Knows .worker known now) program view :=
  follows_labour lasting (within.mono fun _ => .inl) knows

/-- The script that ends a claim. -/
theorem release_follows {call : Call}
    (releases : call.releases? = some jobId)
    (knows : Knows .worker (Working jobId) view) :
    (traceDiscipline strict).Follows Ends (await call) view := by
  refine follows_end knows fun own working => ?_
  cases call <;> cases releases <;> exact working.popped

/-- An update that spends no attempt. -/
theorem update_follows {update : StateUpdate} (own : update.id = jobId)
    (spares : update.incrementAttempts = false)
    {rest : Option Job → Async Next}
    (knows : Knows .worker (Working jobId) view)
    (second : ∀ found now, Knows .worker (Working jobId) now →
      (traceDiscipline strict).Follows Ends (rest found) now) :
    (traceDiscipline strict).Follows Ends
      ((JobRepository.updateState update).bind rest) view := by
  refine follows_call (fun _ _ => trivial) knows ?_ ?_
  · intro earlier working
    refine ⟨own ▸ working.popped, fun spends => ?_⟩
    rw [spares] at spends
    cases spends
  · intro now found _ knowsNow
    refine second found now (knowsNow.mono ?_)
    rintro _ ⟨pid, earlier, rfl, working⟩
    apply working.cons
    cases found <;> simp [Event.spent?, spares]

/-- An update that spends the attempt just recorded. -/
theorem spend_follows {update : StateUpdate} (own : update.id = jobId)
    {rest : Option Job → Async Next}
    (knows : Knows .worker (Ahead jobId) view)
    (second : ∀ found now, Knows .worker (Working jobId) now →
      (traceDiscipline strict).Follows Ends (rest found) now) :
    (traceDiscipline strict).Follows Ends
      ((JobRepository.updateState update).bind rest) view := by
  refine follows_call (fun _ _ => trivial) knows ?_ ?_
  · intro earlier ahead
    exact ⟨own ▸ ahead.popped, fun _ => own ▸ ahead.ahead⟩
  · intro now found _ knowsNow
    refine second found now (knowsNow.mono ?_)
    rintro _ ⟨pid, earlier, rfl, ahead⟩
    refine ⟨(did_cons ..).mpr (.inr ahead.popped), fun other => ?_⟩
    have before := ahead.balanced other
    have room := ahead.ahead
    simp only [spentOf, recordedOf, List.countP_cons, Event.recorded?]
      at before room ⊢
    simp only [reduceCtorEq, decide_false, Bool.false_eq_true, if_false]
    by_cases same : jobId = other
    · subst same
      split <;> omega
    · have spared : Event.spent? ⟨pid, .updateState update, .ok found⟩ ≠
          some other := by
        cases found with
        | none => simp [Event.spent?]
        | some job =>
            simp only [Event.spent?]
            split
            · rw [own]
              simpa using same
            · simp
      simp only [spared, decide_false, Bool.false_eq_true, if_false]
      omega

theorem deferUntil_follows {job : Job} {runAtMs : Int} (own : job.id = jobId)
    (knows : Knows .worker (Working jobId) view) :
    (traceDiscipline strict).Follows Ends
      (JobService.deferUntil jobId job runAtMs) view :=
  update_follows own rfl knows fun _ _ knowsNow => release_follows rfl knowsNow

theorem settle_follows {deployment : Deployment} {job : Job}
    {result : DeliveryService.DeliveryResult} (own : job.id = jobId)
    (knows : Knows .worker (Ahead jobId) view) :
    (traceDiscipline strict).Follows Ends
      (JobService.settle deployment jobId job result) view := by
  have lasts := lasting_ahead jobId
  unfold JobService.settle
  split
  · refine follows_then
      (gates_follow lasts knows (recordSuccess_within _)) ?_
    intro _ _ knows
    exact spend_follows own knows fun _ _ knows => release_follows rfl knows
  · refine follows_then
      (gates_follow lasts knows (recordFailure_within _ _)) ?_
    intro _ _ knows
    dsimp only
    split
    · exact spend_follows own knows fun _ _ knows =>
        release_follows rfl knows
    · apply follows_then (gates_follow lasts knows (backoffMs_within _))
      intro _ _ knows
      refine follows_then (gates_follow lasts knows
        (@Within.perform Call _ _ _ .now rfl)) ?_
      intro _ _ knows
      exact spend_follows own knows fun _ _ knows =>
        release_follows rfl knows

/-- A delivery that returns has recorded an attempt. -/
theorem deliver_follows {deployment : Deployment} {job : Job}
    {webhookUrl secret : String} (own : job.id = jobId)
    (knows : Knows .worker (Working jobId) view) :
    (traceDiscipline strict).Follows
      (fun now outcome => ∀ result, outcome = .ok result →
        Knows .worker (Ahead jobId) now)
      (DeliveryService.deliver deployment job webhookUrl secret) view := by
  have fails : ∀ (now : Trace) (failure : AppError)
      (result : DeliveryService.DeliveryResult),
      (Except.error failure : Except AppError _) = .ok result →
        Knows .worker (Ahead jobId) now :=
    fun _ _ _ same => by cases same
  refine follows_call fails knows (fun _ _ => rfl) ?_
  intro now number _ knowsNow
  have numbered : Knows .worker (Numbered jobId number) now := by
    apply knowsNow.mono
    rintro _ ⟨pid, earlier, rfl, working⟩
    refine ⟨working.cons rfl, (did_cons ..).mpr (.inl ?_)⟩
    simp [Event.numbered?, own]
  have labour : ∀ {Value : Type} {program : Async Value} {view : Trace},
      (program.Within fun call => call.sends jobId) →
        Knows .worker (Numbered jobId number) view →
          (traceDiscipline strict).Follows (fun now outcome =>
            ∀ value, outcome = .ok value →
              Knows .worker (Numbered jobId number) now) program view :=
    fun within knows => (follows_labour (lasting_numbered jobId number)
      (within.mono fun _ => .inr) knows).mono fun _ _ holds _ _ => holds
  apply follows_bind fails (labour (Within.perform rfl) numbered)
  intro startedAt _ knows
  apply follows_bind fails (labour (Within.perform rfl) knows)
  intro timestamp _ knows
  refine follows_bind fails (labour ((send_within _).mono
    fun _ sends => own ▸ sends) knows) ?_
  intro answer _ knows
  apply follows_bind fails (labour (Within.perform rfl) knows)
  intro endedAt _ knows
  refine follows_call fails knows (fun earlier numbered => ?_) ?_
  · show did earlier Event.numbered? (job.id, number)
    rw [own]
    exact numbered.numbered
  intro now _ _ knowsNow
  refine follows_pure fun _ _ => knowsNow.mono ?_
  rintro _ ⟨pid, earlier, rfl, numbered⟩
  refine ⟨numbered.toWorking.cons rfl, ?_⟩
  have before := numbered.balanced jobId
  simp only [spentOf, recordedOf, List.countP_cons, Event.recorded?,
    Event.spent?, own, decide_true, if_true] at before ⊢
  simp only [reduceCtorEq, decide_false, Bool.false_eq_true, if_false]
  omega

theorem deliverJob_follows {deployment : Deployment} {job : Job}
    (own : job.id = jobId) (knows : Knows .worker (Working jobId) view) :
    (traceDiscipline strict).Follows Ends
      (JobService.deliverJob deployment jobId job) view := by
  have lasts := lasting_working jobId
  apply update_follows own rfl knows
  intro _ _ knows
  apply follows_then (gates_follow lasts knows (getById_within _))
  intro webhook _ knows
  apply follows_then (gates_follow lasts knows (getSecret_within _))
  intro secret _ knows
  refine follows_bind (fun _ _ => trivial) (deliver_follows own knows) ?_
  exact fun _ _ knows => settle_follows own knows

theorem process_follows {deployment : Deployment}
    (knows : Knows .worker (Working jobId) view) :
    (traceDiscipline strict).Follows Ends
      (JobService.process deployment jobId) view := by
  have lasts := lasting_working jobId
  refine follows_call (fun _ _ => trivial) knows (fun _ _ => rfl) ?_
  intro now found answers knowsNow
  have knows : Knows .worker (Working jobId) now := by
    apply knowsNow.mono
    rintro _ ⟨pid, earlier, rfl, working⟩
    exact working.cons rfl
  cases found with
  | none => exact release_follows rfl knows
  | some job =>
      have own : job.id = jobId := answers
      show (traceDiscipline strict).Follows _ (ite _ _ _) _
      split
      · exact release_follows rfl knows
      apply follows_then (gates_follow lasts knows (check_within _ _))
      intro circuitState _ knows
      split
      · refine follows_then (gates_follow lasts knows
          (@Within.perform Call _ _ _ .now rfl)) ?_
        exact fun _ _ knows => deferUntil_follows own knows
      refine follows_then
        (gates_follow lasts knows (take_within _ _ _ _)) ?_
      intro rate _ knows
      split
      · refine follows_then (gates_follow lasts knows
          (@Within.perform Call _ _ _ .now rfl)) ?_
        exact fun _ _ knows => deferUntil_follows own knows
      · exact deliverJob_follows own knows

/-- A job that `reserve` returns has been popped. -/
theorem reserve_follows (knows : Knows .worker Balanced view) :
    (traceDiscipline strict).Follows
      (fun now outcome => ∀ jobId, outcome = .ok (some jobId) →
        Knows .worker (Working jobId) now) Queue.reserve view := by
  have fails : ∀ (now : Trace) (failure : AppError) (jobId : JobId),
      (Except.error failure : Except AppError (Option JobId)) =
        .ok (some jobId) → Knows .worker (Working jobId) now :=
    fun _ _ _ same => by cases same
  refine follows_call fails knows (fun _ _ => rfl) ?_
  rintro now (_ | jobId) _ knowsNow
  · exact follows_pure fun _ same => by cases same
  have popped : Knows .worker (Working jobId) now := by
    apply knowsNow.mono
    rintro _ ⟨pid, earlier, rfl, balanced⟩
    exact ⟨(did_cons ..).mpr (.inl rfl), balanced⟩
  refine follows_call fails popped (fun _ _ => rfl) ?_
  intro now time _ knowsNow
  have knows : Knows .worker (Working jobId) now := by
    apply knowsNow.mono
    rintro _ ⟨pid, earlier, rfl, working⟩
    exact working.cons rfl
  refine follows_call fails knows (fun _ working => working.popped) ?_
  intro now _ _ knowsNow
  apply follows_pure
  rintro _ ⟨rfl⟩
  apply knowsNow.mono
  rintro _ ⟨pid, earlier, rfl, working⟩
  exact working.cons rfl

theorem consume_follows (deployment : Deployment)
    (knows : Knows .worker Balanced view) :
    (traceDiscipline strict).Follows Ends (Worker.consume deployment)
      view := by
  refine Follows.bind (Follows.attempt
    ((reserve_follows knows).mono ?_))
  rintro now (failure | _ | jobId) popped
  · exact ends_pure
  · exact ends_pure
  refine Follows.tryCatch ((process_follows (popped jobId rfl)).mono ?_)
  rintro now (failure | value) _
  · exact ends_pure
  · trivial

/-! ## Replays -/

theorem replayLoop_follows {limit : Nat} (left : Nat)
    (replayed : List JobId)
    (knows : Knows (.replay limit) (fun _ => True) view) :
    (traceDiscipline strict).Follows Ends
      (JobService.replayLoop left replayed) view := by
  induction left generalizing replayed view with
  | zero => exact ends_pure
  | succ left ih =>
      refine follows_call (fun _ _ => trivial) knows
        (fun _ _ => trivial) ?_
      rintro now (_ | jobId) _ knowsNow
      · exact ends_pure
      have drawn : Knows (.replay limit)
          (fun own => did own Event.drawn? jobId) now := by
        apply knowsNow.mono
        rintro _ ⟨pid, earlier, rfl, _⟩
        exact (did_cons ..).mpr (.inl rfl)
      refine follows_call (fun _ _ => trivial) drawn
        (fun _ drawn => drawn) ?_
      rintro now (_ | job) _ knowsNow
      · exact ih _ (knowsNow.mono fun _ _ => trivial)
      have still : Knows (.replay limit)
          (fun own => did own Event.drawn? jobId) now := by
        apply knowsNow.mono
        rintro _ ⟨pid, earlier, rfl, drawn⟩
        exact (did_cons ..).mpr (.inr drawn)
      refine follows_call (fun _ _ => trivial) still
        (fun _ drawn => drawn) ?_
      exact fun now _ _ knowsNow => ih _ (knowsNow.mono fun _ _ => trivial)

/-- A process that returns a job to a request has answered it. -/
def Returns (view : Trace) (outcome : Except AppError Result) : Prop :=
  ∀ job, outcome = .ok (.enqueued job) → ∃ input,
    Knows (.enqueue input) (Answered input job) view

/-- What a process has done when its program starts. -/
def Starts (own : List Event) : Role → Prop
  | .enqueue _ => own = []
  | .worker => Balanced own
  | .replay _ => True

/-- Every process makes its calls in order. -/
theorem main_follows (deployment : Deployment) (role : Role)
    (same : view.role = some role) (starts : Starts view.own role) :
    (traceDiscipline strict).Follows Returns (role.main deployment) view := by
  cases role with
  | enqueue input =>
      have untried : Untried view.own := by
        rw [show view.own = [] from starts]
        constructor <;> simp
      refine Follows.bind ((enqueue_follows (.inr ⟨same, untried⟩)).mono ?_)
      rintro now (failure | job) answers
      · exact fun _ same => by cases same
      apply follows_pure
      rintro _ ⟨rfl⟩
      exact ⟨input, answers job rfl⟩
  | replay limit =>
      refine Follows.bind ((replayLoop_follows limit []
        (.inr ⟨same, trivial⟩)).mono ?_)
      rintro now (failure | jobIds) _
      · exact fun _ same => by cases same
      · exact follows_pure fun _ same => by cases same
  | worker =>
      refine Follows.bind ((consume_follows deployment
        (.inr ⟨same, starts⟩)).mono ?_)
      rintro now (failure | done) _
      · exact fun _ same => by cases same
      · exact follows_pure fun _ same => by cases same

end TraceDiscipline

end WebhookDelivery
