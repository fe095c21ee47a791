import WebhookDelivery.MigrationDiscipline

/-!
# Migrations are applied in order

The names that are recorded are the first files, and the tables are what these
files make of the tables of a database without migrations, whatever fails and
however the runs overlap.  At most one transaction at a time has inserted a
name, that of the next file, and none commits between its `BEGIN` and its own
`COMMIT`.
-/

namespace WebhookDelivery

namespace Migration

open Concurrency Program Discipline

variable {Schema : Type} {folder : Folder Schema} {base : Schema}

/-! ## What one call does -/

/-- Nothing has been committed in between. -/
structure Database.Same (before after : Database Schema) : Prop where
  schema : after.schema = before.schema
  names : after.names = before.names
  commits : after.commits = before.commits
  table : before.migrations.isSome → after.migrations.isSome

/-- The transaction has recorded the next file after executing its text on the
tables as they are. -/
structure Transaction.Claims (folder : Folder Schema)
    (database : Database Schema) (file : String)
    (transaction : Transaction Schema) : Prop where
  sound : transaction.failed = false
  names : transaction.names = [file]
  began : transaction.began = database.commits
  next : database.names ++ [file] <+: folder.files
  executed : folder.execute (folder.text file) database.schema =
    some transaction.schema
  table : database.migrations.isSome

/-- A session has inserted no name, or that of the next file. -/
def Session.Sound (folder : Folder Schema) (database : Database Schema)
    (session : Session Schema) : Prop :=
  session.pendingNames = [] ∨ ∃ transaction file,
    session = .active transaction ∧ transaction.Claims folder database file

theorem Database.Same.refl (database : Database Schema) :
    database.Same database :=
  ⟨rfl, rfl, rfl, id⟩

theorem Database.Same.grows {before after : Database Schema}
    (same : before.Same after) : before.Grows after where
  table := same.table
  recorded := .inl ⟨same.schema, same.names, same.commits⟩

theorem Session.Sound.same {before after : Database Schema}
    {session : Session Schema} (sound : session.Sound folder before)
    (same : before.Same after) : session.Sound folder after := by
  rcases sound with none | ⟨transaction, file, active, claims⟩
  · exact .inl none
  · refine .inr ⟨transaction, file, active, ?_⟩
    exact {
      sound := claims.sound
      names := claims.names
      began := claims.began.trans same.commits.symm
      next := same.names ▸ claims.next
      executed := same.schema ▸ claims.executed
      table := same.table claims.table }

theorem Session.pendingNames_abort (session : Session Schema) :
    session.abort.pendingNames = [] := by
  cases session <;> rfl

theorem Transaction.Claims.pendingNames {database : Database Schema}
    {file : String} {transaction : Transaction Schema}
    (claims : transaction.Claims folder database file) :
    (Session.active transaction).pendingNames = [file] := by
  rw [Session.pendingNames, claims.sound]
  exact claims.names

/-- What an allowed call can do to the database and to the session. -/
inductive Moves {folder : Folder Schema} (choice : Choice folder)
    (database : Database Schema) (session : Session Schema) :
    Call → Database Schema → Session Schema → Prop
  | kept {call : Call} {after : Database Schema} {left : Session Schema}
      (same : database.Same after)
      (idle : left = session ∨ left.pendingNames = []) :
      Moves choice database session call after left
  | inserted {transaction : Transaction Schema} {file : String}
      (active : session = .active transaction)
      (table : database.migrations.isSome) (fresh : file ∉ database.names) :
      Moves choice database session (.insertName file) database
        (.active { transaction with names := transaction.names ++ [file] })
  | committed {transaction : Transaction Schema}
      (active : session = .active transaction)
      (sound : transaction.failed = false) (names : transaction.names ≠ []) :
      Moves choice database session .commit
        (transaction.commit choice database) .idle

theorem moves_of_answer (choice : Choice folder) {call : Call}
    {database : Database Schema} {session : Session Schema}
    (allowed : Allowed folder (database, session) call) :
    Moves choice database session call
      (answer choice call database session).2.1
      (answer choice call database session).2.2 := by
  cases call with
  | createTable => exact .kept ⟨rfl, rfl, rfl, fun _ => rfl⟩ (.inl rfl)
  | readdir | release => exact .kept (.refl _) (.inl rfl)
  | selectNames | readFile _ =>
      simp only [answer]
      split <;> exact .kept (.refl _) (.inl rfl)
  | connect =>
      cases session with
      | idle | active _ => exact .kept (.refl _) (.inl rfl)
      | lost => exact .kept (.refl _) (.inr rfl)
  | beginTransaction =>
      cases session with
      | idle => exact .kept (.refl _) (.inr rfl)
      | lost => exact .kept (.refl _) (.inl rfl)
      | active transaction =>
          simp only [answer]
          split <;> exact .kept (.refl _) (.inl rfl)
  | rollback =>
      cases session with
      | idle | active _ => exact .kept (.refl _) (.inr rfl)
      | lost => exact .kept (.refl _) (.inl rfl)
  | query sql =>
      rcases allowed with lost | ⟨transaction, active, names⟩
      · cases lost
        exact .kept (.refl _) (.inl rfl)
      · cases active
        simp only [answer, Session.statement]
        split
        · exact .kept (.refl _) (.inl rfl)
        next sound =>
          refine .kept (.refl _) (.inr ?_)
          rcases transaction.query_cases choice database sql with
            ⟨schema, -, made⟩ | failed
          · simp [made, Session.pendingNames, names]
          · simp [failed, Transaction.fail, Session.pendingNames]
  | insertName file =>
      rcases allowed with
        lost | ⟨transaction, earlier, later, active, -, -, current⟩
      · cases lost
        exact .kept (.refl _) (.inl rfl)
      · cases active
        rw [answer, Session.statement_active _ _ current.sound]
        rcases transaction.insertName_cases database file with
          ⟨table, fresh, inserted⟩ | ⟨failure, failed⟩
        · rw [inserted]
          exact .inserted rfl table fresh
        · rw [failed]
          exact .kept (.refl _) (.inr rfl)
  | commit =>
      rcases allowed with lost | ⟨transaction, active, names, -⟩
      · cases lost
        exact .kept (.refl _) (.inl rfl)
      · cases active
        simp only [answer]
        split
        · exact .kept (.refl _) (.inr rfl)
        next sound =>
          exact .committed rfl (Bool.eq_false_iff.mpr sound) names

/-! ## One call of one run -/

section Call

variable {database : Database Schema} {file : String}
  {earlier later : List String}

/-- A file whose predecessors are recorded, and which is not, is the next. -/
theorem names_eq_of_fresh (inOrder : database.names <+: folder.files)
    (files : folder.files = earlier ++ file :: later)
    (known : earlier.length ≤ database.names.length)
    (fresh : file ∉ database.names) : database.names = earlier := by
  have front : earlier <+: folder.files := ⟨file :: later, files.symm⟩
  obtain ⟨more, split⟩ := List.prefix_of_prefix_length_le front inOrder known
  rw [← split, files, List.prefix_append_right_inj] at inOrder
  cases more with
  | nil => rw [← split, List.append_nil]
  | cons first others =>
      obtain ⟨rfl, -⟩ := List.cons_prefix_cons.mp inOrder
      exact absurd (split ▸ by simp) fresh

/-- What has been executed on the latest tables may claim the next file. -/
theorem claims_of_fresh {transaction : Transaction Schema}
    (inOrder : database.names <+: folder.files)
    (files : folder.files = earlier ++ file :: later)
    (known : earlier.length ≤ database.names.length)
    (current : transaction.Current earlier.length []
      (folder.execute (folder.text file)) database)
    (table : database.migrations.isSome) (fresh : file ∉ database.names) :
    { transaction with names := transaction.names ++ [file] }.Claims folder
      database file := by
  have names := names_eq_of_fresh inOrder files known fresh
  have began : transaction.began = database.commits := by
    by_contra other
    have overtaken := current.overtaken other
    rw [names] at overtaken
    exact Nat.lt_irrefl _ overtaken
  exact {
    sound := current.sound
    names := by rw [current.names]; rfl
    began := began
    next := ⟨later, by rw [names, files, List.append_assoc]; rfl⟩
    executed := current.latest began
    table := table }

/-- The transaction that has claimed the next file commits it. -/
theorem migrated_commit {transaction : Transaction Schema}
    (choice : Choice folder) (migrated : folder.Migrated base database)
    (claims : transaction.Claims folder database file) :
    folder.Migrated base (transaction.commit choice database) := by
  have names : (transaction.commit choice database).names =
      database.names ++ [file] := by
    rw [Transaction.names_commit _ _ _ claims.table, claims.names]
  constructor
  · rw [names]
    exact claims.next
  · rw [names, Folder.apply_append, migrated.applied, Option.bind_some,
      Folder.apply_singleton, claims.executed, Transaction.commit,
      Transaction.finds, if_pos claims.began]

theorem grows_commit {transaction : Transaction Schema}
    (choice : Choice folder)
    (claims : transaction.Claims folder database file) :
    database.Grows (transaction.commit choice database) where
  table := by
    rw [Transaction.isSome_commit]
    exact id
  recorded := by
    right
    rw [Transaction.names_commit _ _ _ claims.table, claims.names,
      List.length_append]
    exact ⟨Nat.lt_succ_self _, Nat.lt_succ_self _⟩

theorem migrated_same {after : Database Schema}
    (migrated : folder.Migrated base database) (same : database.Same after) :
    folder.Migrated base after where
  inOrder := same.names ▸ migrated.inOrder
  applied := by
    rw [same.names, same.schema]
    exact migrated.applied

end Call

/-! ## The system -/

/-- The sessions of the other runs have a property. -/
def State.Elsewhere (state : State Schema) (index : Nat)
    (property : Session Schema → Prop) : Prop :=
  ∀ (other : Nat) (another : Run Schema),
    state.runs[other]? = some another → other ≠ index →
      property another.session

/-- What holds in every state of the system. -/
structure Invariant (folder : Folder Schema) (base : Schema)
    (state : State Schema) : Prop where
  migrated : folder.Migrated base state.database
  sound : ∀ (index : Nat) (run : Run Schema), state.runs[index]? = some run →
    run.session.Sound folder state.database
  sole : ∀ (index : Nat) (run : Run Schema), state.runs[index]? = some run →
    run.session.pendingNames ≠ [] →
      state.Elsewhere index fun session => session.pendingNames = []
  proceeds : ∀ (index : Nat) (run : Run Schema),
    state.runs[index]? = some run →
      Proceeds folder base (state.database, run.session) run.rest

namespace Invariant

variable {state : State Schema} {index : Nat} {run : Run Schema}
  {session : Session Schema} {rest : Option (Async Unit)}

/-- One run goes on, and the database grows at most. -/
theorem moved {database : Database Schema}
    (invariant : Invariant folder base state)
    (found : state.runs[index]? = some run)
    (migrated : folder.Migrated base database)
    (grows : state.database.Grows database)
    (sound : session.Sound folder database)
    (others : state.Elsewhere index fun session =>
      session.Sound folder database)
    (alone : session.pendingNames ≠ [] →
      state.Elsewhere index fun session => session.pendingNames = [])
    (proceeds : Proceeds folder base (database, session) rest) :
    Invariant folder base
      (State.setRun { state with database := database } index session
        rest) := by
  have bound := (List.getElem?_eq_some_iff.mp found).1
  have self : (state.runs.set index ⟨session, rest⟩)[index]? =
      some ⟨session, rest⟩ :=
    List.getElem?_set_self bound
  have apart {other : Nat} (distinct : other ≠ index) :
      (state.runs.set index ⟨session, rest⟩)[other]? = state.runs[other]? :=
    List.getElem?_set_ne distinct.symm
  constructor
  · exact migrated
  · intro other another foundOther
    by_cases same : other = index
    · cases same
      cases self.symm.trans foundOther
      exact sound
    · exact others other another (apart same ▸ foundOther) same
  · intro first one foundFirst pending second two foundSecond distinct
    by_cases same : first = index
    · cases same
      cases self.symm.trans foundFirst
      exact alone pending second two (apart distinct ▸ foundSecond) distinct
    · have firstFound := (apart same).symm.trans foundFirst
      by_cases moved : second = index
      · cases moved
        cases self.symm.trans foundSecond
        by_contra claimed
        exact pending (alone claimed first one firstFound same)
      · exact invariant.sole first one firstFound pending second two
          ((apart moved).symm.trans foundSecond) distinct
  · intro other another foundOther
    by_cases same : other = index
    · cases same
      cases self.symm.trans foundOther
      exact proceeds
    · exact (invariant.proceeds other another
        ((apart same).symm.trans foundOther)).rely ⟨grows, .inl rfl⟩

/-- One run goes on without committing or claiming anything. -/
theorem kept {database : Database Schema}
    (invariant : Invariant folder base state)
    (found : state.runs[index]? = some run)
    (same : state.database.Same database)
    (idle : session = run.session ∨ session.pendingNames = [])
    (proceeds : Proceeds folder base (database, session) rest) :
    Invariant folder base
      (State.setRun { state with database := database } index session
        rest) := by
  refine moved invariant found (migrated_same invariant.migrated same)
    same.grows ?_ ?_ ?_ proceeds
  · rcases idle with rfl | none
    · exact (invariant.sound index run found).same same
    · exact .inl none
  · intro other another foundOther _
    exact (invariant.sound other another foundOther).same same
  · intro claims
    rcases idle with rfl | none
    · exact invariant.sole index run found claims
    · exact absurd none claims

/-- While a run claims the next file, no other has inserted its name. -/
theorem pendingNames_of_unblocked {file : String}
    (invariant : Invariant folder base state)
    (unblocked : state.blocked index (.insertName file) = false)
    (next : state.database.names ++ [file] <+: folder.files) :
    state.Elsewhere index fun session => session.pendingNames = [] := by
  intro other another found distinct
  rcases invariant.sound other another found with
    none | ⟨transaction, claimed, active, claims⟩
  · exact none
  · have names := claims.pendingNames
    rw [← active] at names
    have same : state.database.names ++ [file] =
        state.database.names ++ [claimed] :=
      List.IsPrefix.eq_of_length
        (List.prefix_of_prefix_length_le next claims.next (by simp))
        (by simp)
    obtain ⟨rfl⟩ := List.append_cancel_left same
    have member : another ∈ state.runs.eraseIdx index :=
      List.mem_eraseIdx_iff_getElem?.mpr ⟨other, distinct, found⟩
    simp only [State.blocked, List.any_eq_false, decide_eq_true_eq]
      at unblocked
    exact absurd (names ▸ List.mem_singleton_self _)
      (unblocked another member)

/-- One run completes an allowed call. -/
theorem answered {call : Call} {choice : Choice folder}
    {database : Database Schema} (invariant : Invariant folder base state)
    (found : state.runs[index]? = some run)
    (unblocked : state.blocked index call = false)
    (allowed : Allowed folder (state.database, run.session) call)
    (moves : Moves choice state.database run.session call database session)
    (proceeds : Proceeds folder base (database, session) rest) :
    Invariant folder base
      (State.setRun { state with database := database } index session
        rest) := by
  cases moves with
  | kept same idle => exact kept invariant found same idle proceeds
  | @inserted transaction file active table fresh =>
      rcases allowed with
        lost | ⟨_, earlier, later, same, files, known, current⟩
      · exact absurd (active.symm.trans lost) nofun
      · cases active.symm.trans same
        have claims := claims_of_fresh invariant.migrated.inOrder files known
          current table fresh
        refine moved invariant found invariant.migrated (.refl _)
          (.inr ⟨_, file, rfl, claims⟩) ?_ ?_ proceeds
        · intro other another foundOther _
          exact invariant.sound other another foundOther
        · intro _
          exact invariant.pendingNames_of_unblocked unblocked claims.next
  | @committed transaction active sound names =>
      have pending : run.session.pendingNames ≠ [] := by
        rw [active, Session.pendingNames, sound]
        exact names
      rcases invariant.sound index run found with
        none | ⟨_, file, same, claims⟩
      · exact absurd none pending
      · cases active.symm.trans same
        refine moved invariant found
          (migrated_commit choice invariant.migrated claims)
          (grows_commit choice claims) (.inl rfl) ?_ ?_ proceeds
        · intro other another foundOther distinct
          exact .inl (invariant.sole index run found pending other another
            foundOther distinct)
        · exact fun claimed => absurd rfl claimed

/-- A run starts. -/
theorem started (invariant : Invariant folder base state) :
    Invariant folder base
      { state with runs := state.runs ++ [⟨.idle, some migrate⟩] } := by
  have cases_of_found {other : Nat} {another : Run Schema}
      (found : (state.runs ++ [⟨.idle, some migrate⟩])[other]? =
        some another) :
      state.runs[other]? = some another ∨ another = ⟨.idle, some migrate⟩ := by
    rw [List.getElem?_append] at found
    split at found
    · exact .inl found
    · exact .inr (List.mem_singleton.mp (List.mem_of_getElem? found))
  constructor
  · exact invariant.migrated
  · intro other another found
    rcases cases_of_found found with old | rfl
    · exact invariant.sound other another old
    · exact .inl rfl
  · intro first one foundFirst pending second two foundSecond distinct
    rcases cases_of_found foundFirst with old | rfl
    · rcases cases_of_found foundSecond with also | rfl
      · exact invariant.sole first one old pending second two also distinct
      · rfl
    · exact absurd rfl pending
  · intro other another found
    rcases cases_of_found found with old | rfl
    · exact invariant.proceeds other another old
    · exact .of_follows (follows_migrate nofun)

theorem step (invariant : Invariant folder base state)
    {action : Action folder} {after : State Schema}
    (taken : Migration.step folder state action = some after) :
    Invariant folder base after := by
  cases action with
  | start =>
      cases taken
      exact invariant.started
  | call index choice =>
      simp only [Migration.step] at taken
      split at taken
      next session call next rescue found =>
        split at taken
        · cases taken
        next unblocked =>
          cases taken
          have proceeds := invariant.proceeds index _ found
          exact invariant.answered found (Bool.eq_false_iff.mpr unblocked)
            proceeds.allowed (moves_of_answer choice proceeds.allowed)
            (proceeds.answered invariant.migrated choice)
      · cases taken
  | refuse index failure =>
      simp only [Migration.step] at taken
      split at taken
      next session call next rescue found =>
        split at taken
        next fallible =>
          cases taken
          have proceeds := invariant.proceeds index _ found
          exact invariant.kept found (.refl _)
            (.inr (Session.pendingNames_abort session))
            (proceeds.refused invariant.migrated fallible failure)
        · cases taken
      · cases taken
  | fail index failure =>
      simp only [Migration.step] at taken
      split at taken
      next session call next rescue found =>
        split at taken
        next fallible =>
          cases taken
          have proceeds := invariant.proceeds index _ found
          exact invariant.kept found (.refl _) (.inl rfl)
            (proceeds.failed fallible failure)
        · cases taken
      · cases taken
  | failLate index choice failure =>
      simp only [Migration.step] at taken
      split at taken
      next session call next rescue found =>
        split at taken
        · cases taken
        next enabled =>
          cases taken
          obtain ⟨unblocked, fallible⟩ : state.blocked index call = false ∧
              call.fallible = true := by
            simpa using enabled
          have proceeds := invariant.proceeds index _ found
          exact invariant.answered found unblocked proceeds.allowed
            (moves_of_answer choice proceeds.allowed)
            (proceeds.unanswered invariant.migrated choice fallible failure)
      · cases taken
  | disconnect index =>
      simp only [Migration.step] at taken
      split at taken
      next session rest found =>
        cases taken
        have proceeds := invariant.proceeds index _ found
        exact invariant.kept found (.refl _) (.inr rfl)
          (proceeds.rely ⟨.refl _, .inr rfl⟩)
      · cases taken
  | crash index =>
      simp only [Migration.step] at taken
      split at taken
      next session call next rescue found =>
        cases taken
        exact invariant.kept found (.refl _) (.inl rfl) nofun
      · cases taken

end Invariant

/-- The recorded names are always the first files, each once, and the tables
are what applying these files makes of `base`; once a run has ended without an
error, every file is recorded. -/
theorem applied_in_order {database : Database Schema}
    (migrated : folder.Migrated base database) {state : State Schema}
    (reachable : Reachable (step folder) (State.initial database)
      (fun _ _ => True) state) :
    folder.Migrated base state.database ∧ state.database.names.Nodup ∧
      ∀ run ∈ state.runs, run.completed →
        state.database.names = folder.files := by
  have start : Invariant folder base (State.initial database) := by
    exact {
      migrated := migrated
      sound := nofun
      sole := nofun
      proceeds := nofun }
  have invariant := reachable.invariant (Invariant folder base) start
    fun _ _ _ held _ taken => held.step taken
  have inOrder := invariant.migrated.inOrder
  refine ⟨invariant.migrated, folder.nodup_files.sublist inOrder.sublist, ?_⟩
  intro run member completed
  obtain ⟨index, found⟩ := List.mem_iff_getElem?.mp member
  have proceeds := invariant.proceeds index run found
  rw [completed] at proceeds
  exact inOrder.eq_of_length
    (le_antisymm inOrder.length_le proceeds.recorded.2)

/-- Two files, whose texts add their names to the tables. -/
def twoFiles : Folder (List String) where
  entries := ["README.md", "002_jobs.sql", "001_webhooks.sql"]
  distinct := by decide
  text file := file
  execute sql tables := some (tables ++ [sql])

def unmigrated : Database (List String) where
  schema := []
  migrations := none
  commits := 0

def listed : Choice twoFiles where
  listing := ["001_webhooks.sql", "README.md", "002_jobs.sql"]
  shuffled := by decide
  mixed := []

/-- The next calls of one run. -/
def calls (index count : Nat) : List (Action twoFiles) :=
  List.replicate count (.call index listed)

/-- Both runs find nothing recorded.  The second one has executed the text of
the first file when the first one commits it, and fails at its `INSERT`. -/
def overlapping : List (Action twoFiles) :=
  [.start, .start] ++ calls 0 7 ++ calls 1 7 ++ calls 0 10 ++ calls 1 3

theorem applied_in_order_overlapping :
    ∃ state, run (step twoFiles) (State.initial unmigrated) overlapping =
        some state ∧
      twoFiles.Migrated [] state.database ∧
        (∃ run ∈ state.runs, run.completed) ∧
          state.database.names = ["001_webhooks.sql", "002_jobs.sql"] := by
  have ends : ((run (step twoFiles) (State.initial unmigrated)
      overlapping).any fun state => state.runs.any (·.completed)) = true := by
    decide +kernel
  obtain ⟨state, runs, ends⟩ := (Option.any_eq_true _ _).mp ends
  obtain ⟨first, member, ended⟩ := List.any_eq_true.mp ends
  have completed : first.completed := of_decide_eq_true ended
  have start : twoFiles.Migrated [] unmigrated := ⟨List.nil_prefix, rfl⟩
  obtain ⟨migrated, -, complete⟩ := applied_in_order start
    (Reachable.of_run runs fun _ _ => trivial)
  refine ⟨state, runs, migrated, ⟨first, member, completed⟩, ?_⟩
  rw [complete first member completed]
  decide +kernel

end Migration

end WebhookDelivery
