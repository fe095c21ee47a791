import WebhookDelivery.Library.Weakest
import WebhookDelivery.MigrationOrder

/-!
# Migrations can always be completed

Runs may overlap, crash, lose their connections or have their statements
refused at any point.  Once the old connections are closed, one more run that
nothing disturbs applies exactly the files that are missing, each in a
transaction of its own.
-/

namespace WebhookDelivery

namespace Migration

open Concurrency Program

variable {Schema : Type} {folder : Folder Schema} {base : Schema}

/-- One call of a run that has the database to itself. -/
def answers (choice : Choice folder) (call : Call) (view : View Schema) :
    Except Failure call.Reply × View Schema :=
  answer choice call view.1 view.2

namespace Undisturbed

variable {choice : Choice folder} {names : List String} {schema made : Schema}
  {commits : Nat} {file : String}

/-- A last call. -/
theorem leads_last {call : Call} {outcome : Except Failure call.Reply}
    {post : Except Failure call.Reply → View Schema → Prop}
    {before after : View Schema}
    (answered : answers choice call before = (outcome, after))
    (ends : post outcome after) :
    (await call).Leads (answers choice) post before := by
  rw [await, leads_perform, answered]
  exact ends

/-- The transaction of a file that has not been recorded. -/
theorem applyText_leads {sql : String} (unrecorded : file ∉ names)
    (executed : folder.execute sql schema = some made) :
    (applyText file sql).Leads (answers choice)
      (fun outcome after => outcome = .ok () ∧
        after = (⟨made, some (names ++ [file]), commits + 1⟩, .idle))
      (⟨schema, some names, commits⟩, .idle) := by
  let database : Database Schema := ⟨schema, some names, commits⟩
  have queried : answers choice (.query sql)
      (database, .active ⟨commits, schema, [], false⟩) =
        (.ok (), database, .active ⟨commits, made, [], false⟩) := by
    simp [answers, answer, Session.statement_active, Transaction.query,
      Transaction.finds, database, executed]
  have inserted : answers choice (.insertName file)
      (database, .active ⟨commits, made, [], false⟩) =
        (.ok (), database, .active ⟨commits, made, [file], false⟩) := by
    simp [answers, answer, Session.statement_active, Transaction.insertName,
      database, unrecorded]
  have committed : answers choice .commit
      (database, .active ⟨commits, made, [file], false⟩) =
        (.ok (), ⟨made, some (names ++ [file]), commits + 1⟩, .idle) := by
    simp [answers, answer, Transaction.commit, Transaction.finds, database]
  apply Leads.step rfl
  apply Leads.step (congrArg Prod.fst queried)
  rw [queried]
  apply Leads.step (congrArg Prod.fst inserted)
  rw [inserted]
  exact leads_last committed ⟨rfl, rfl⟩

theorem applyFile_leads (listed : file ∈ folder.entries)
    (unrecorded : file ∉ names)
    (executed : folder.execute (folder.text file) schema = some made) :
    (applyFile file).Leads (answers choice)
      (fun outcome after => outcome = .ok () ∧
        after = (⟨made, some (names ++ [file]), commits + 1⟩, .idle))
      (⟨schema, some names, commits⟩, .idle) := by
  let before : View Schema := (⟨schema, some names, commits⟩, .idle)
  have read : answers choice (.readFile file) before =
      (.ok (folder.text file), before) := by
    simp [answers, answer, listed]
  apply Leads.step (congrArg Prod.fst read)
  rw [read]
  apply Leads.step rfl
  rw [leads_bind, leads_attempt, leads_tryCatch]
  apply (applyText_leads unrecorded executed).mono
  rintro _ _ ⟨rfl, rfl⟩
  apply Leads.step rfl
  exact ⟨rfl, rfl⟩

/-- The pending files are applied and recorded in their order. -/
theorem applyPending_leads {pending : List String}
    (listed : ∀ file ∈ pending, file ∈ folder.entries)
    (distinct : (names ++ pending).Nodup)
    (applicable : folder.apply pending schema = some made) :
    (applyPending pending).Leads (answers choice)
      (fun outcome after => outcome = .ok () ∧
        after = (⟨made, some (names ++ pending), commits + pending.length⟩,
          .idle)) (⟨schema, some names, commits⟩, .idle) := by
  induction pending generalizing names schema commits with
  | nil =>
      cases applicable
      exact ⟨rfl, by simp⟩
  | cons file pending ih =>
      rw [List.forall_mem_cons] at listed
      obtain ⟨next, executed, rest⟩ := Option.bind_eq_some_iff.mp applicable
      have unrecorded : file ∉ names := by
        intro recorded
        exact (List.nodup_append.mp distinct).2.2 file recorded file
          List.mem_cons_self rfl
      apply Leads.bind
      apply (applyFile_leads listed.1 unrecorded executed).mono
      rintro _ _ ⟨rfl, rfl⟩
      refine ⟨(), rfl, ?_⟩
      have longer : (names ++ [file]) ++ pending = names ++ file :: pending := by
        simp
      rw [← longer] at distinct ⊢
      have count : commits + (file :: pending).length =
          commits + 1 + pending.length := by
        simp only [List.length_cons]
        omega
      rw [count]
      exact ih listed.2 distinct rest

/-- A run that finds the first files recorded applies the others. -/
theorem migrate_leads {database : Database Schema} {pending : List String}
    (files : folder.files = database.names ++ pending)
    (applicable : folder.apply pending database.schema = some made) :
    migrate.Leads (answers choice)
      (fun outcome after => outcome = .ok () ∧
        after = (⟨made, some folder.files,
          database.commits + pending.length⟩, .idle))
      (database, .idle) := by
  apply Leads.step rfl
  apply Leads.step rfl
  apply Leads.step rfl
  rw [pending_of_listing choice.shuffled files]
  have listed : ∀ file ∈ pending, file ∈ folder.entries := by
    intro file member
    have sorted : file ∈ folder.files := by
      rw [files]
      exact List.mem_append_right _ member
    exact (List.mem_filter.mp ((JavaScript.perm_sort _).mem_iff.mp sorted)).1
  have distinct := folder.nodup_files
  rw [files] at distinct ⊢
  exact applyPending_leads listed distinct applicable

end Undisturbed

/-! ## The system -/

/-- The run once its connection is closed. -/
def Run.close (run : Run Schema) : Run Schema :=
  { run with session := .lost }

/-- The server closes the connections of all runs, one after the other. -/
theorem run_disconnect (database : Database Schema)
    (closed rest : List (Run Schema)) :
    run (step folder) ⟨database, closed ++ rest⟩
        ((List.range' closed.length rest.length).map .disconnect) =
      some ⟨database, closed ++ rest.map Run.close⟩ := by
  induction rest generalizing closed with
  | nil => rfl
  | cons first rest ih =>
      have taken : step folder ⟨database, closed ++ first :: rest⟩
          (.disconnect closed.length) =
            some ⟨database, (closed ++ [first.close]) ++ rest⟩ := by
        simp [step, State.setRun, Run.close]
      have later := ih (closed ++ [first.close])
      rw [List.length_append, List.length_singleton] at later
      rw [List.length_cons, List.range'_succ, List.map_cons]
      refine Option.bind_eq_some_iff.mpr ⟨_, taken, later.trans ?_⟩
      simp

/-- The last run is on its own: it has come to `program`, and the connections
of the others are closed. -/
def Alone (closed : List (Run Schema)) (state : State Schema)
    (program : Async Unit) (view : View Schema) : Prop :=
  state = ⟨view.1, closed.map Run.close ++ [⟨view.2, some program⟩]⟩

theorem Alone.call {closed : List (Run Schema)} {state : State Schema}
    {request : Call} {next : request.Reply → Async Unit}
    {rescue : Failure → Async Unit} {view : View Schema}
    (choice : Choice folder)
    (alone : Alone closed state (.call request next rescue) view) :
    ∃ after, step folder state (.call closed.length choice) = some after ∧
      Alone closed after
        (resume next rescue (answers choice request view).1)
        (answers choice request view).2 := by
  subst alone
  let last : Run Schema := ⟨view.2, some (.call request next rescue)⟩
  refine ⟨_, ?_, rfl⟩
  have found : (closed.map Run.close ++ [last])[closed.length]? =
      some last := by
    simp
  have others : (closed.map Run.close ++ [last]).eraseIdx closed.length =
      closed.map Run.close := by
    rw [List.eraseIdx_append_of_length_le (List.length_map _).le]
    simp
  have free : State.blocked ⟨view.1, closed.map Run.close ++ [last]⟩
      closed.length request = false := by
    unfold State.blocked
    split
    · rw [others]
      simp [Run.close, Session.pendingNames]
    · rfl
  simp only [step, found, free, last]
  simp [State.setRun, answers]

/-! ## What is committed -/

/-- A transaction has executed the text of the next file on the tables as they
were, recorded its name, and nothing else. -/
structure Database.Applies (folder : Folder Schema)
    (before after : Database Schema) (file : String) : Prop where
  next : before.names ++ [file] <+: folder.files
  recorded : after.names = before.names ++ [file]
  executed : folder.execute (folder.text file) before.schema =
    some after.schema
  commits : after.commits = before.commits + 1

/-- Nothing is committed, or the next file is applied. -/
def Database.Advances (folder : Folder Schema)
    (before after : Database Schema) : Prop :=
  before.Same after ∨ ∃ file, before.Applies folder after file

theorem applies_commit {database : Database Schema} {file : String}
    {transaction : Transaction Schema} (choice : Choice folder)
    (claims : transaction.Claims folder database file) :
    database.Applies folder (transaction.commit choice database) file where
  next := claims.next
  recorded := by
    rw [Transaction.names_commit _ _ _ claims.table, claims.names]
  executed := by
    rw [claims.executed, Transaction.commit, Transaction.finds,
      if_pos claims.began]
  commits := rfl

theorem advances_of_moves {state : State Schema} {index : Nat}
    {run : Run Schema} {call : Call} {choice : Choice folder}
    {database : Database Schema} {session : Session Schema}
    (invariant : Invariant folder base state)
    (found : state.runs[index]? = some run)
    (moves : Moves choice state.database run.session call database session) :
    state.database.Advances folder database := by
  cases moves with
  | kept same _ => exact .inl same
  | inserted => exact .inl (.refl _)
  | @committed transaction active sound names =>
      rcases invariant.sound index run found with
        none | ⟨_, file, same, claims⟩
      · rw [active, Session.pendingNames, sound] at none
        exact absurd none names
      · cases active.symm.trans same
        exact .inr ⟨file, applies_commit choice claims⟩

/-- One step of the system. -/
theorem advances_of_step {state after : State Schema}
    {action : Action folder} (invariant : Invariant folder base state)
    (taken : step folder state action = some after) :
    state.database.Advances folder after.database := by
  have answered {index : Nat} {session : Session Schema} {call : Call}
      {next : call.Reply → Async Unit} {rescue : Failure → Async Unit}
      (found : state.runs[index]? =
        some ⟨session, some (.call call next rescue)⟩)
      (choice : Choice folder) :
      state.database.Advances folder
        (answer choice call state.database session).2.1 :=
    advances_of_moves invariant found
      (moves_of_answer choice (invariant.proceeds index _ found).allowed)
  cases action with
  | start =>
      cases taken
      exact .inl (.refl _)
  | call index choice =>
      simp only [step] at taken
      split at taken
      next found =>
        split at taken
        · cases taken
        · cases taken
          exact answered found choice
      · cases taken
  | failLate index choice failure =>
      simp only [step] at taken
      split at taken
      next found =>
        split at taken
        · cases taken
        · cases taken
          exact answered found choice
      · cases taken
  | refuse _ _ | fail _ _ =>
      simp only [step] at taken
      split at taken
      · split at taken
        · cases taken
          exact .inl (.refl _)
        · cases taken
      · cases taken
  | disconnect _ | crash _ =>
      simp only [step] at taken
      split at taken
      · cases taken
        exact .inl (.refl _)
      · cases taken

/-! ## One more run -/

/-- The old connections are closed, one new run is started, and nothing
happens but its calls. -/
def State.rerun (state : State Schema) (choice : Choice folder)
    (count : Nat) : List (Action folder) :=
  (List.range' 0 state.runs.length).map .disconnect ++
    .start :: List.replicate count (.call state.runs.length choice)

/-- The second run has inserted the name of the first file and crashes; its
connection stays open. -/
def crashedInTransaction : List (Action twoFiles) :=
  [.start, .start] ++ calls 0 3 ++ calls 1 8 ++ [.crash 1]

end Migration

end WebhookDelivery
