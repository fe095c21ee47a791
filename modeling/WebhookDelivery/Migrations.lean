import WebhookDelivery.Library.CodeUnits
import WebhookDelivery.Library.Program
import WebhookDelivery.Library.Run

/-!
# The migration runner

`migrate.ts` on one database.  The tables that the files build are a value of
an arbitrary type, and a file's text is whatever Postgres makes of it; the
table `schema_migrations` is kept apart.  Any number of runs overlap, each
with one connection for its transactions.
-/

namespace WebhookDelivery

namespace Migration

open Concurrency

/-- The directory `migrations`.  `execute` is what the statements of a text do
to the tables, and none when one of them fails. -/
structure Folder (Schema : Type) where
  entries : List String
  distinct : entries.Nodup
  text : String → String
  execute : String → Schema → Option Schema

variable {Schema : Type}

namespace Folder

variable (folder : Folder Schema)

/-- The order in which the files are to be applied. -/
def files : List String :=
  JavaScript.sort (folder.entries.filter (·.endsWith ".sql"))

/-- The files with these names, applied one after the other. -/
def apply (names : List String) (schema : Schema) : Option Schema :=
  names.foldlM (fun schema file => folder.execute (folder.text file) schema)
    schema

end Folder

/-! ## The database -/

structure Database (Schema : Type) where
  schema : Schema
  /-- The rows of `schema_migrations` in the order of their commits; none while
  the table does not exist. -/
  migrations : Option (List String)
  /-- How many transactions have committed. -/
  commits : Nat

structure Transaction (Schema : Type) where
  /-- How many had committed when it began. -/
  began : Nat
  /-- The tables as its own statements have left them. -/
  schema : Schema
  /-- The names it has inserted. -/
  names : List String
  /-- A statement has failed, and nothing but `ROLLBACK` will do. -/
  failed : Bool

/-- A connection as the server sees it. -/
inductive Session (Schema : Type)
  | idle
  | active (transaction : Transaction Schema)
  | lost

/-- What the server and the file system leave open. -/
structure Choice (folder : Folder Schema) where
  /-- The order in which `readdir` lists the directory. -/
  listing : List String
  shuffled : listing.Perm folder.entries
  /-- The tables as a transaction finds them when others have committed since
  its `BEGIN`. -/
  mixed : Schema

inductive Failure
  | undefinedTable
  | uniqueViolation
  | statementFailed
  | transactionAborted
  | noSuchFile
  | connectionLost
  deriving DecidableEq

/-- What `migrate` awaits, and the `release` of its connection. -/
inductive Call
  | createTable
  | readdir
  | selectNames
  | readFile (file : String)
  | connect
  | beginTransaction
  | query (sql : String)
  | insertName (file : String)
  | commit
  | rollback
  | release
  deriving DecidableEq

abbrev Call.Reply : Call → Type
  | .readdir => List String
  | .selectNames => List String
  | .readFile _ => String
  | _ => Unit

def Database.names (database : Database Schema) : List String :=
  database.migrations.getD []

def Database.beginTransaction (database : Database Schema) :
    Transaction Schema where
  began := database.commits
  schema := database.schema
  names := []
  failed := false

namespace Transaction

variable {folder : Folder Schema} (choice : Choice folder)
  (database : Database Schema) (transaction : Transaction Schema)

/-- The tables as the next statement finds them. -/
def finds : Schema :=
  if transaction.began = database.commits then transaction.schema
  else choice.mixed

def fail : Transaction Schema :=
  { transaction with failed := true }

def query (sql : String) : Except Failure Unit × Transaction Schema :=
  match folder.execute sql (transaction.finds choice database) with
  | some schema => (.ok (), { transaction with schema := schema })
  | none => (.error .statementFailed, transaction.fail)

/-- `INSERT INTO schema_migrations`; the name is the primary key. -/
def insertName (file : String) : Except Failure Unit × Transaction Schema :=
  match database.migrations with
  | none => (.error .undefinedTable, transaction.fail)
  | some names =>
      if file ∈ names ++ transaction.names then
        (.error .uniqueViolation, transaction.fail)
      else
        (.ok (), { transaction with names := transaction.names ++ [file] })

/-- The database once the transaction has committed. -/
def commit : Database Schema where
  schema := transaction.finds choice database
  migrations := database.migrations.map (· ++ transaction.names)
  commits := database.commits + 1

theorem query_cases (sql : String) :
    (∃ schema, folder.execute sql (transaction.finds choice database) =
        some schema ∧
      transaction.query choice database sql =
        (.ok (), { transaction with schema := schema })) ∨
    transaction.query choice database sql =
      (.error .statementFailed, transaction.fail) := by
  unfold query
  split
  next schema executed => exact .inl ⟨schema, executed, rfl⟩
  · exact .inr rfl

theorem insertName_cases (file : String) :
    (database.migrations.isSome ∧ file ∉ database.names ∧
      transaction.insertName database file =
        (.ok (), { transaction with names := transaction.names ++ [file] })) ∨
    ∃ failure, transaction.insertName database file =
      (.error failure, transaction.fail) := by
  unfold insertName Database.names
  cases database.migrations with
  | none => exact .inr ⟨_, rfl⟩
  | some names =>
      by_cases taken : file ∈ names ++ transaction.names
      · exact .inr ⟨.uniqueViolation, if_pos taken⟩
      · refine .inl ⟨rfl, ?_, if_neg taken⟩
        exact fun recorded => taken (List.mem_append_left _ recorded)

theorem names_commit (table : database.migrations.isSome) :
    (transaction.commit choice database).names =
      database.names ++ transaction.names := by
  obtain ⟨names, found⟩ := Option.isSome_iff_exists.mp table
  simp [Database.names, commit, found]

theorem isSome_commit :
    (transaction.commit choice database).migrations.isSome =
      database.migrations.isSome := by
  simp [commit]

end Transaction

namespace Session

/-- One statement; outside a transaction it commits by itself. -/
def statement {folder : Folder Schema} (choice : Choice folder)
    (database : Database Schema) (session : Session Schema)
    (run : Transaction Schema → Except Failure Unit × Transaction Schema) :
    Except Failure Unit × Database Schema × Session Schema :=
  match session with
  | .lost => (.error .connectionLost, database, .lost)
  | .active transaction =>
      if transaction.failed then
        (.error .transactionAborted, database, .active transaction)
      else
        let result := run transaction
        (result.1, database, .active result.2)
  | .idle =>
      match run database.beginTransaction with
      | (.ok (), transaction) =>
          (.ok (), transaction.commit choice database, .idle)
      | (.error failure, _) => (.error failure, database, .idle)

theorem statement_active {folder : Folder Schema} (choice : Choice folder)
    (database : Database Schema) {transaction : Transaction Schema}
    (sound : transaction.failed = false)
    (run : Transaction Schema → Except Failure Unit × Transaction Schema) :
    (active transaction).statement choice database run =
      ((run transaction).1, database, .active (run transaction).2) := by
  simp [statement, sound]

/-- The names whose fate the others have to wait for before they can insert
them. -/
def pendingNames : Session Schema → List String
  | .active transaction =>
      if transaction.failed then [] else transaction.names
  | _ => []

/-- The server gives up a transaction. -/
def abort : Session Schema → Session Schema
  | .active transaction => .active transaction.fail
  | session => session

end Session

/-- One call on the database and the session of its run. -/
def answer {folder : Folder Schema} (choice : Choice folder) :
    (call : Call) → Database Schema → Session Schema →
      Except Failure call.Reply × Database Schema × Session Schema
  | .createTable, database, session =>
      (.ok (), { database with migrations := some database.names }, session)
  | .readdir, database, session => (.ok choice.listing, database, session)
  | .selectNames, database, session =>
      match database.migrations with
      | some names => (.ok names, database, session)
      | none => (.error .undefinedTable, database, session)
  | .readFile file, database, session =>
      if file ∈ folder.entries then
        (.ok (folder.text file), database, session)
      else (.error .noSuchFile, database, session)
  | .connect, database, session =>
      match session with
      | .lost => (.ok (), database, .idle)
      | _ => (.ok (), database, session)
  | .beginTransaction, database, session =>
      match session with
      | .lost => (.error .connectionLost, database, .lost)
      | .idle => (.ok (), database, .active database.beginTransaction)
      | .active transaction =>
          if transaction.failed then
            (.error .transactionAborted, database, .active transaction)
          else (.ok (), database, .active transaction)
  | .query sql, database, session =>
      session.statement choice database fun transaction =>
        transaction.query choice database sql
  | .insertName file, database, session =>
      session.statement choice database fun transaction =>
        transaction.insertName database file
  | .commit, database, session =>
      match session with
      | .lost => (.error .connectionLost, database, .lost)
      | .idle => (.ok (), database, .idle)
      | .active transaction =>
          -- after a failed statement, `COMMIT` quietly rolls back
          if transaction.failed then (.ok (), database, .idle)
          else (.ok (), transaction.commit choice database, .idle)
  | .rollback, database, session =>
      match session with
      | .lost => (.error .connectionLost, database, .lost)
      | _ => (.ok (), database, .idle)
  | .release, database, session => (.ok (), database, session)

/-! ## The program -/

abbrev Async (Value : Type) := Program Call Call.Reply Failure Value

def await (call : Call) : Async call.Reply := Program.perform call

/-- The `try` block of one file. -/
def applyText (file sql : String) : Async Unit := do
  await .beginTransaction
  await (.query sql)
  await (.insertName file)
  await .commit

/-- The body of the loop; `finally` follows either outcome. -/
def applyFile (file : String) : Async Unit := do
  let sql : String ← await (.readFile file)
  await .connect
  let outcome ← Program.attempt
    (Program.tryCatch (applyText file sql) fun failure => do
      await .rollback
      throw failure)
  await .release
  match outcome with
  | .ok () => pure ()
  | .error failure => throw failure

def applyPending : List String → Async Unit
  | [] => pure ()
  | file :: pending => do
      applyFile file
      applyPending pending

def migrate : Async Unit := do
  await .createTable
  let filesOnDisk : List String ← await .readdir
  let alreadyApplied : List String ← await .selectNames
  let pending := (JavaScript.sort
    (filesOnDisk.filter (·.endsWith ".sql"))).filter
      fun file => file ∉ alreadyApplied
  -- with nothing pending, `migrate` only says so
  applyPending pending

/-! ## The system -/

structure Run (Schema : Type) where
  session : Session Schema
  /-- What is left of `migrate`; nothing after a crash. -/
  rest : Option (Async Unit)

/-- The run has ended without an error. -/
def Run.completed (run : Run Schema) : Prop :=
  run.rest = some (.pure ())

instance (run : Run Schema) : Decidable run.completed :=
  match run with
  | ⟨_, some (.pure ())⟩ => isTrue rfl
  | ⟨_, some (.throw _)⟩ | ⟨_, some (.call _ _ _)⟩ | ⟨_, none⟩ =>
      isFalse nofun

structure State (Schema : Type) where
  database : Database Schema
  /-- The runs in the order of their start. -/
  runs : List (Run Schema)

inductive Action (folder : Folder Schema)
  | start
  | call (run : Nat) (choice : Choice folder)
  /-- The server refuses the pending call and gives up the transaction. -/
  | refuse (run : Nat) (failure : Failure)
  /-- The pending call fails without effect. -/
  | fail (run : Nat) (failure : Failure)
  /-- The pending call takes effect, but its reply is lost. -/
  | failLate (run : Nat) (choice : Choice folder) (failure : Failure)
  /-- The connection is lost, and the server rolls back. -/
  | disconnect (run : Nat)
  | crash (run : Nat)

namespace State

/-- A database that no run has reached yet. -/
def initial (database : Database Schema) : State Schema where
  database := database
  runs := []

/-- An `INSERT` waits while another transaction has inserted the name. -/
def blocked (state : State Schema) (run : Nat) : Call → Bool
  | .insertName file =>
      (state.runs.eraseIdx run).any fun other =>
        file ∈ other.session.pendingNames
  | _ => false

def setRun (state : State Schema) (run : Nat) (session : Session Schema)
    (rest : Option (Async Unit)) : State Schema :=
  { state with runs := state.runs.set run ⟨session, rest⟩ }

end State

/-- The calls to the file system and to the server can fail. -/
def Call.fallible : Call → Bool
  | .release => false
  | _ => true

/-- The step function; `none` when the action is not enabled. -/
def step (folder : Folder Schema) (state : State Schema) :
    Action folder → Option (State Schema)
  | .start => some { state with runs := state.runs ++ [⟨.idle, some migrate⟩] }
  | .call run choice =>
      match state.runs[run]? with
      | some ⟨session, some (.call call next rescue)⟩ =>
          if state.blocked run call then none
          else
            let result := answer choice call state.database session
            some (State.setRun { state with database := result.2.1 } run
              result.2.2 (some (Program.resume next rescue result.1)))
      | _ => none
  | .refuse run failure =>
      match state.runs[run]? with
      | some ⟨session, some (.call call _ rescue)⟩ =>
          if call.fallible then
            some (state.setRun run session.abort (some (rescue failure)))
          else none
      | _ => none
  | .fail run failure =>
      match state.runs[run]? with
      | some ⟨session, some (.call call _ rescue)⟩ =>
          if call.fallible then
            some (state.setRun run session (some (rescue failure)))
          else none
      | _ => none
  | .failLate run choice failure =>
      match state.runs[run]? with
      | some ⟨session, some (.call call _ rescue)⟩ =>
          if state.blocked run call || !call.fallible then none
          else
            let result := answer choice call state.database session
            some (State.setRun { state with database := result.2.1 } run
              result.2.2 (some (rescue failure)))
      | _ => none
  | .disconnect run =>
      match state.runs[run]? with
      | some ⟨_, rest⟩ => some (state.setRun run .lost rest)
      | none => none
  | .crash run =>
      match state.runs[run]? with
      | some ⟨session, some (.call _ _ _)⟩ =>
          some (state.setRun run session none)
      | _ => none

end Migration

end WebhookDelivery
