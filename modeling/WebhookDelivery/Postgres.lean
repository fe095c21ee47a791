import WebhookDelivery.Types
import Mathlib.Logic.Function.Basic

/-!
# The Postgres tables and statements

Three tables and one function per SQL statement.  A statement that violates a
constraint raises and leaves the tables as they were.
-/

namespace WebhookDelivery

structure Postgres where
  jobs : JobId → Option JobRow
  /-- The primary key: a row is found under its own id. -/
  keyed : ∀ {id row}, jobs id = some row → row.id = id
  webhooks : WebhookId → Option WebhookRow
  /-- `delivery_attempts`, in order of insertion. -/
  deliveryAttempts : List AttemptRecord
  /-- Every id `gen_random_uuid()` has given to a row, deleted rows
  included. -/
  issued : List JobId

/-- The row of an `INSERT INTO jobs` that keeps the object `payload`; the
columns the statement leaves out take their defaults. -/
def JobInput.newRow (maxAttempts : Nat) (uuid : JobId) (now : Int)
    (input : JobInput) (payload : String) : JobRow where
  id := uuid
  tenant := input.tenant
  webhookId := input.webhookId
  eventType := input.eventType
  payload := payload
  state := .queued
  attempts := 0
  maxAttempts := maxAttempts
  runAt := input.runAt.getD now
  lastError := none
  createdAt := now
  updatedAt := now

/-- The columns of an `UPDATE jobs` by `updateState`; an omitted `lastError`
is written as `NULL`, an omitted `runAt` keeps the stored one. -/
structure StateUpdate where
  id : JobId
  state : JobState
  incrementAttempts : Bool := false
  lastError : Option String := none
  runAt : Option Int := none
  deriving DecidableEq

/-- The `SET` list of `updateState`, at Postgres time `now`. -/
def StateUpdate.apply (update : StateUpdate) (now : Int) (row : JobRow) :
    JobRow :=
  { row with
    state := update.state
    attempts := row.attempts + if update.incrementAttempts then 1 else 0
    lastError := update.lastError
    runAt := update.runAt.getD row.runAt
    updatedAt := now }

/-- The `SET` list of `resetForReplay`, at Postgres time `now`. -/
def JobRow.reset (now : Int) (row : JobRow) : JobRow :=
  { row with
    state := .queued
    attempts := 0
    lastError := none
    runAt := now
    updatedAt := now }

/-- Postgres rejects `U+0000` in a `TEXT` parameter. -/
def storableText (text : String) : Bool :=
  text.toList.all fun char => decide (char ≠ '\u0000')

namespace Postgres

def empty : Postgres where
  jobs := fun _ => none
  keyed := fun found => by cases found
  webhooks := fun _ => none
  deliveryAttempts := []
  issued := []

def setJob (db : Postgres) (row : JobRow) : Postgres :=
  { db with
    jobs := Function.update db.jobs row.id (some row)
    keyed := fun {id found} lookup => by
      by_cases same : id = row.id
      · subst same
        rw [Function.update_self] at lookup
        cases lookup
        rfl
      · rw [Function.update_of_ne same] at lookup
        exact db.keyed lookup }

/-- `INSERT INTO jobs … RETURNING *`.  The id is the generator's choice. -/
def insertJob (jsonb : String → Option String) (maxAttempts : Nat)
    (uuid : JobId) (now : Int) (input : JobInput) (db : Postgres) :
    Except AppError Job × Postgres :=
  if uuid ∈ db.issued then
    (.error (.other "duplicate key value violates unique constraint"), db)
  else if (db.webhooks input.webhookId).isNone then
    (.error (.other "insert violates foreign key constraint"), db)
  else if !(storableText input.tenant && storableText input.eventType) then
    (.error (.other "invalid byte sequence for encoding"), db)
  else
    match jsonb input.payload with
    | none => (.error (.other "unsupported Unicode escape sequence"), db)
    | some payload =>
        let row := input.newRow maxAttempts uuid now payload
        (.ok row.toJob, { db.setJob row with issued := uuid :: db.issued })

/-- `INSERT INTO webhooks`. -/
def insertWebhook (row : WebhookRow) (db : Postgres) : Postgres :=
  { db with
    webhooks := Function.update db.webhooks row.id (some row)
    issued := row.id :: db.issued }

def findJob (db : Postgres) (id : JobId) : Option Job :=
  (db.jobs id).map JobRow.toJob

/-- `updateState`, with the `attempts_within_max` check. -/
def updateState (now : Int) (update : StateUpdate) (db : Postgres) :
    Except AppError (Option Job) × Postgres :=
  match db.jobs update.id with
  | none => (.ok none, db)
  | some row =>
      let updated := update.apply now row
      if !(update.lastError.all storableText) then
        (.error (.other "invalid byte sequence for encoding"), db)
      else if updated.attempts ≤ updated.maxAttempts then
        (.ok (some updated.toJob), db.setJob updated)
      else
        (.error (.other "new row violates check constraint"), db)

def resetForReplay (now : Int) (id : JobId) (db : Postgres) :
    Option Job × Postgres :=
  match db.jobs id with
  | none => (none, db)
  | some row => (some (row.reset now).toJob, db.setJob (row.reset now))

def attemptsOf (db : Postgres) (id : JobId) : List AttemptRecord :=
  db.deliveryAttempts.filter fun record => decide (record.jobId = id)

/-- `SELECT COALESCE(MAX(attemptNumber), 0) + 1`. -/
def nextAttemptNumber (db : Postgres) (id : JobId) : Nat :=
  ((db.attemptsOf id).map AttemptRecord.attemptNumber).foldl max 0 + 1

/-- `INSERT INTO delivery_attempts`, with its foreign key and the
`UNIQUE (jobId, attemptNumber)` constraint. -/
def insertAttempt (record : AttemptRecord) (db : Postgres) :
    Except AppError Unit × Postgres :=
  if (db.jobs record.jobId).isNone then
    (.error (.other "insert violates foreign key constraint"), db)
  else if record.attemptNumber ∈
      (db.attemptsOf record.jobId).map AttemptRecord.attemptNumber then
    (.error (.other "duplicate key value violates unique constraint"), db)
  else if !(record.responseBody.all storableText &&
      record.error.all storableText) then
    (.error (.other "invalid byte sequence for encoding"), db)
  else
    (.ok (), { db with deliveryAttempts := db.deliveryAttempts ++ [record] })

/-- `DELETE FROM webhooks`; the foreign keys cascade to jobs and attempts. -/
def deleteWebhook (id : WebhookId) (db : Postgres) : Postgres :=
  let survives := fun row : JobRow => decide (row.webhookId ≠ id)
  { db with
    webhooks := Function.update db.webhooks id none
    jobs := fun jobId => (db.jobs jobId).filter survives
    keyed := fun found => db.keyed (Option.filter_eq_some_iff.mp found).1
    deliveryAttempts := db.deliveryAttempts.filter fun record =>
      ((db.jobs record.jobId).filter survives).isSome }

/-! ## What the statements can do -/

/-- An `INSERT` raises and changes nothing, or adds one row under a new id. -/
theorem insertJob_cases (jsonb : String → Option String) (maxAttempts : Nat)
    (uuid : JobId) (now : Int) (input : JobInput) (db : Postgres) :
    (∃ failure, db.insertJob jsonb maxAttempts uuid now input =
        (.error failure, db)) ∨
      ∃ payload, jsonb input.payload = some payload ∧ uuid ∉ db.issued ∧
        (db.webhooks input.webhookId).isSome ∧
        db.insertJob jsonb maxAttempts uuid now input =
          (.ok (input.newRow maxAttempts uuid now payload).toJob,
            { db.setJob (input.newRow maxAttempts uuid now payload) with
              issued := uuid :: db.issued }) := by
  unfold insertJob
  split
  · exact .inl ⟨_, rfl⟩
  next unissued =>
    split
    · exact .inl ⟨_, rfl⟩
    next registered =>
      split
      · exact .inl ⟨_, rfl⟩
      · split
        · exact .inl ⟨_, rfl⟩
        next payload kept =>
          exact .inr ⟨payload, kept, unissued,
            by simpa [Option.isSome_iff_ne_none] using registered, rfl⟩

/-- An `UPDATE` finds no row, raises and changes nothing, or rewrites the row
within the check constraint. -/
theorem updateState_cases (now : Int) (update : StateUpdate)
    (db : Postgres) :
    (db.jobs update.id = none ∧
        db.updateState now update = (.ok none, db)) ∨
      ∃ row, db.jobs update.id = some row ∧
        ((∃ failure, db.updateState now update = (.error failure, db)) ∨
          (update.apply now row).attempts ≤ row.maxAttempts ∧
            db.updateState now update =
              (.ok (some (update.apply now row).toJob),
                db.setJob (update.apply now row))) := by
  unfold updateState
  split
  next absent => exact .inl ⟨absent, rfl⟩
  next row found =>
    refine .inr ⟨row, found, ?_⟩
    dsimp only
    split
    · exact .inl ⟨_, rfl⟩
    · split
      next within => exact .inr ⟨within, rfl⟩
      · exact .inl ⟨_, rfl⟩

theorem resetForReplay_cases (now : Int) (id : JobId) (db : Postgres) :
    (db.jobs id = none ∧ db.resetForReplay now id = (none, db)) ∨
      ∃ row, db.jobs id = some row ∧
        db.resetForReplay now id =
          (some (row.reset now).toJob, db.setJob (row.reset now)) := by
  unfold resetForReplay
  split
  next absent => exact .inl ⟨absent, rfl⟩
  next row found => exact .inr ⟨row, found, rfl⟩

theorem setJob_jobs (db : Postgres) (row : JobRow) (id : JobId) :
    (db.setJob row).jobs id = if id = row.id then some row else db.jobs id :=
  Function.update_apply ..

end Postgres

end WebhookDelivery
