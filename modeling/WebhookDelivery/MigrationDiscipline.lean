import WebhookDelivery.Migrations
import WebhookDelivery.Library.Discipline

/-!
# What a run of the migrations relies on

A run knows how many files were recorded when it looked, and the others only
add to them.  It records a file in the transaction that has executed the
file's text; once that transaction has been overtaken by another one, the file
is recorded already.
-/

namespace WebhookDelivery

namespace Migration

open Concurrency Program Discipline

variable {Schema : Type} {folder : Folder Schema} {base : Schema}

namespace Folder

/-- The first files have been applied to `base`, each once, and recorded. -/
structure Migrated (folder : Folder Schema) (base : Schema)
    (database : Database Schema) : Prop where
  inOrder : database.names <+: folder.files
  applied : folder.apply database.names base = some database.schema

theorem nodup_files (folder : Folder Schema) : folder.files.Nodup :=
  (JavaScript.perm_sort _).nodup_iff.mpr (folder.distinct.filter _)

theorem apply_append (names more : List String) (schema : Schema) :
    folder.apply (names ++ more) schema =
      (folder.apply names schema).bind (folder.apply more) := by
  rw [apply, List.foldlM_append]
  rfl

theorem apply_singleton (file : String) (schema : Schema) :
    folder.apply [file] schema =
      folder.execute (folder.text file) schema := by
  show (folder.execute (folder.text file) schema >>= fun made => some made) = _
  exact bind_pure _

end Folder

/-! ## What the others may do -/

/-- The migrations that are recorded stay, and a transaction that commits adds
to them. -/
structure Database.Grows (before after : Database Schema) : Prop where
  table : before.migrations.isSome → after.migrations.isSome
  recorded : after.schema = before.schema ∧ after.names = before.names ∧
      after.commits = before.commits ∨
    before.commits < after.commits ∧ before.names.length < after.names.length

theorem Database.Grows.refl (database : Database Schema) :
    database.Grows database where
  table := id
  recorded := .inl ⟨rfl, rfl, rfl⟩

theorem Database.Grows.trans {first second third : Database Schema}
    (earlier : first.Grows second) (later : second.Grows third) :
    first.Grows third where
  table := later.table ∘ earlier.table
  recorded := by
    rcases earlier.recorded with ⟨schema, names, commits⟩ | ⟨commits, longer⟩
    · rw [← schema, ← names, ← commits]
      exact later.recorded
    · right
      rcases later.recorded with ⟨-, names, same⟩ | ⟨more, longest⟩
      · rw [names, same]
        exact ⟨commits, longer⟩
      · exact ⟨by omega, by omega⟩

theorem Database.Grows.length_le {before after : Database Schema}
    (grows : before.Grows after) :
    before.names.length ≤ after.names.length := by
  rcases grows.recorded with ⟨-, names, -⟩ | ⟨-, longer⟩
  · rw [names]
  · omega

/-- The transaction for a file after `count` others; `made` is what it has
done to the tables. -/
structure Transaction.Current (count : Nat) (names : List String)
    (made : Schema → Option Schema) (database : Database Schema)
    (transaction : Transaction Schema) : Prop where
  began : transaction.began ≤ database.commits
  sound : transaction.failed = false
  names : transaction.names = names
  latest : transaction.began = database.commits →
    made database.schema = some transaction.schema
  overtaken : transaction.began ≠ database.commits →
    count < database.names.length

theorem Transaction.Current.grows {count : Nat} {names : List String}
    {made : Schema → Option Schema} {before after : Database Schema}
    {transaction : Transaction Schema}
    (current : transaction.Current count names made before)
    (known : count ≤ before.names.length) (grows : before.Grows after) :
    transaction.Current count names made after where
  began := by
    have began := current.began
    rcases grows.recorded with ⟨-, -, same⟩ | ⟨more, -⟩ <;> omega
  sound := current.sound
  names := current.names
  latest := by
    intro same
    have began := current.began
    rcases grows.recorded with ⟨schema, -, commits⟩ | ⟨more, -⟩
    · rw [schema]
      exact current.latest (by omega)
    · omega
  overtaken := by
    intro other
    rcases grows.recorded with ⟨-, recorded, commits⟩ | ⟨-, longer⟩
    · rw [recorded]
      exact current.overtaken (by omega)
    · omega

/-! ## The discipline of a run -/

/-- The database and the session of a run. -/
abbrev View (Schema : Type) : Type := Database Schema × Session Schema

/-- The calls a run may make: no statement outside a transaction, none after
its `INSERT`, and the name of a file only in the transaction that has executed
its text, with the earlier files recorded. -/
def Allowed (folder : Folder Schema) (view : View Schema) : Call → Prop
  | .query _ => view.2 = .lost ∨
      ∃ transaction, view.2 = .active transaction ∧ transaction.names = []
  | .insertName file => view.2 = .lost ∨
      ∃ transaction earlier later, view.2 = .active transaction ∧
        folder.files = earlier ++ file :: later ∧
          earlier.length ≤ view.1.names.length ∧
            transaction.Current earlier.length []
              (folder.execute (folder.text file)) view.1
  | .commit => view.2 = .lost ∨
      ∃ transaction, view.2 = .active transaction ∧
        transaction.names ≠ [] ∧ view.1.migrations.isSome
  | _ => True

def discipline (folder : Folder Schema) (base : Schema) :
    Discipline Call Call.Reply Failure where
  View := View Schema
  Rely view now :=
    view.1.Grows now.1 ∧ (now.2 = view.2 ∨ now.2 = .lost)
  rely_refl view := ⟨.refl view.1, .inl rfl⟩
  rely_trans := by
    rintro first second third ⟨grows, session⟩ ⟨growsOn, later⟩
    refine ⟨grows.trans growsOn, ?_⟩
    rcases later with same | lost
    · rw [same]
      exact session
    · exact .inr lost
  Allowed := Allowed folder
  Fallible _ call := call.fallible
  Effect view call outcome after :=
    folder.Migrated base view.1 ∧
      ((∃ choice : Choice folder, answer choice call view.1 view.2 =
          (outcome, after)) ∨
        call.fallible ∧ (∃ failure, outcome = .error failure) ∧
          after = (view.1, view.2.abort))
  lost view := view

section Stages

variable {view now after : View Schema} {count : Nat}

/-- The first `count` files are recorded. -/
def Recorded (count : Nat) (view : View Schema) : Prop :=
  view.1.migrations.isSome ∧ count ≤ view.1.names.length

/-- The run has no transaction. -/
def Between (count : Nat) (view : View Schema) : Prop :=
  Recorded count view ∧ ∀ transaction, view.2 ≠ .active transaction

/-- The run has the transaction for the next file, unless the connection is
lost. -/
def During (count : Nat) (names : List String)
    (made : Schema → Option Schema) (view : View Schema) : Prop :=
  Recorded count view ∧ (view.2 = .lost ∨
    ∃ transaction, view.2 = .active transaction ∧
      transaction.Current count names made view.1)

/-- What holds at the end of a program that has not failed. -/
def Ends {Value : Type} (property : View Schema → Prop) (view : View Schema) :
    Except Failure Value → Prop
  | .ok _ => property view
  | .error _ => True

theorem Recorded.rely (recorded : Recorded count view)
    (rely : (discipline folder base).Rely view now) : Recorded count now :=
  ⟨rely.1.table recorded.1, recorded.2.trans rely.1.length_le⟩

theorem inactive_of_rely (inactive : ∀ transaction, view.2 ≠ .active transaction)
    (rely : (discipline folder base).Rely view now) :
    ∀ transaction, now.2 ≠ .active transaction := by
  intro transaction active
  rcases rely.2 with same | lost
  · exact inactive transaction (same ▸ active)
  · rw [lost] at active
    cases active

theorem Between.rely (between : Between count view)
    (rely : (discipline folder base).Rely view now) : Between count now :=
  ⟨between.1.rely rely, inactive_of_rely between.2 rely⟩

theorem During.rely {names : List String} {made : Schema → Option Schema}
    (during : During count names made view)
    (rely : (discipline folder base).Rely view now) :
    During count names made now := by
  refine ⟨during.1.rely rely, ?_⟩
  rcases rely.2 with same | lost
  · rcases during.2 with lost | ⟨transaction, active, current⟩
    · exact .inl (same.trans lost)
    · exact .inr ⟨transaction, same.trans active,
        current.grows during.1.2 rely.1⟩
  · exact .inl lost

end Stages

section Calls

variable {now after : View Schema} {count : Nat} {file sql : String}

theorem answer_of_effect {call : Call} {reply : call.Reply}
    (effect : (discipline folder base).Effect now call (.ok reply) after) :
    ∃ choice : Choice folder,
      answer choice call now.1 now.2 = (.ok reply, after) := by
  rcases effect.2 with answered | ⟨-, ⟨failure, failed⟩, -⟩
  · exact answered
  · cases failed

theorem text_of_readFile
    (effect : (discipline folder base).Effect now (.readFile file) (.ok sql)
      after) : sql = folder.text file ∧ after = now := by
  obtain ⟨choice, answered⟩ := answer_of_effect effect
  simp only [answer] at answered
  split at answered
  · cases answered
    exact ⟨rfl, rfl⟩
  · cases answered

theorem recorded_of_selectNames {names : List String}
    (effect : (discipline folder base).Effect now .selectNames (.ok names)
      after) : names = now.1.names ∧ after = now := by
  obtain ⟨choice, answered⟩ := answer_of_effect effect
  simp only [answer] at answered
  split at answered
  next recorded table =>
    cases answered
    simp [Database.names, table]
  · cases answered

theorem between_of_connect (between : Between count now)
    (effect : (discipline folder base).Effect now .connect (.ok ()) after) :
    Between count after := by
  obtain ⟨choice, answered⟩ := answer_of_effect effect
  obtain ⟨database, session⟩ := now
  cases session with
  | idle | active _ =>
      cases answered
      exact between
  | lost =>
      cases answered
      exact ⟨between.1, fun _ active => nomatch active⟩

theorem during_of_begin (between : Between count now)
    (effect : (discipline folder base).Effect now .beginTransaction (.ok ())
      after) : During count [] some after := by
  obtain ⟨choice, answered⟩ := answer_of_effect effect
  obtain ⟨database, session⟩ := now
  cases session with
  | idle =>
      cases answered
      refine ⟨between.1, .inr ⟨_, rfl, ?_⟩⟩
      exact {
        began := le_rfl
        sound := rfl
        names := rfl
        latest := fun _ => rfl
        overtaken := fun other => absurd rfl other }
  | active transaction => exact absurd rfl (between.2 transaction)
  | lost => cases answered

theorem during_of_query (during : During count [] some now)
    (effect : (discipline folder base).Effect now (.query sql) (.ok ())
      after) : During count [] (folder.execute sql) after := by
  obtain ⟨choice, answered⟩ := answer_of_effect effect
  obtain ⟨database, session⟩ := now
  rcases during.2 with rfl | ⟨transaction, rfl, current⟩
  · cases answered
  · rw [answer, Session.statement_active _ _ current.sound] at answered
    rcases transaction.query_cases choice database sql with
      ⟨schema, executed, made⟩ | failed
    · rw [made] at answered
      cases answered
      refine ⟨during.1, .inr ⟨_, rfl, ?_⟩⟩
      exact { current with
        latest := by
          intro same
          have unchanged : database.schema = transaction.schema :=
            Option.some.inj (current.latest same)
          rw [Transaction.finds, if_pos same] at executed
          rw [unchanged]
          exact executed }
    · rw [failed] at answered
      cases answered

theorem during_of_insert {made : Schema → Option Schema}
    (during : During count [] made now)
    (effect : (discipline folder base).Effect now (.insertName file) (.ok ())
      after) : During count [file] made after := by
  obtain ⟨choice, answered⟩ := answer_of_effect effect
  obtain ⟨database, session⟩ := now
  rcases during.2 with rfl | ⟨transaction, rfl, current⟩
  · cases answered
  · rw [answer, Session.statement_active _ _ current.sound] at answered
    rcases transaction.insertName_cases database file with
      ⟨-, -, inserted⟩ | ⟨failure, failed⟩
    · rw [inserted] at answered
      cases answered
      refine ⟨during.1, .inr ⟨_, rfl, ?_⟩⟩
      exact { current with names := by rw [current.names]; rfl }
    · rw [failed] at answered
      cases answered

theorem between_of_commit {made : Schema → Option Schema}
    (during : During count [file] made now)
    (effect : (discipline folder base).Effect now .commit (.ok ()) after) :
    Between (count + 1) after := by
  obtain ⟨choice, answered⟩ := answer_of_effect effect
  obtain ⟨database, session⟩ := now
  rcases during.2 with rfl | ⟨transaction, rfl, current⟩
  · cases answered
  · obtain ⟨table, known⟩ := during.1
    simp only [answer, current.sound] at answered
    cases answered
    refine ⟨⟨?_, ?_⟩, fun _ active => nomatch active⟩
    · rw [Transaction.isSome_commit]
      exact table
    · rw [Transaction.names_commit _ _ _ table, current.names,
        List.length_append, List.length_singleton]
      exact Nat.succ_le_succ known

end Calls

section Programs

variable {view : View Schema} {count : Nat} {file : String}
  {earlier later pending : List String}

/-- A call between two transactions. -/
theorem follows_between {call : Call} {rest : call.Reply → Async Unit}
    {property : View Schema → Prop}
    (allowed : ∀ view, Allowed folder view call)
    (replies : ∀ now reply after, Between count now →
      (discipline folder base).Effect now call (.ok reply) after →
        (discipline folder base).Follows (Ends property) (rest reply) after)
    (between : Between count view) :
    (discipline folder base).Follows (Ends property)
      ((perform call).bind rest) view :=
  Follows.call_bind (Between count) Between.rely (fun _ _ => trivial)
    (fun now _ => allowed now) replies between

/-- A statement of a transaction. -/
theorem follows_during {call : Call} {rest : call.Reply → Async Unit}
    {property : View Schema → Prop} {names : List String}
    {made : Schema → Option Schema}
    (allowed : ∀ now, During count names made now → Allowed folder now call)
    (replies : ∀ now reply after, During count names made now →
      (discipline folder base).Effect now call (.ok reply) after →
        (discipline folder base).Follows (Ends property) (rest reply) after)
    (during : During count names made view) :
    (discipline folder base).Follows (Ends property)
      ((perform call).bind rest) view :=
  Follows.call_bind (During count names made) During.rely (fun _ _ => trivial)
    allowed replies during

/-- The `try` block, with the earlier files recorded. -/
theorem follows_applyText
    (files : folder.files = earlier ++ file :: later)
    (between : Between earlier.length view) :
    (discipline folder base).Follows (Ends (Between (earlier.length + 1)))
      (applyText file (folder.text file)) view := by
  refine follows_between (fun _ => trivial) ?_ between
  intro now _ begun between effect
  refine follows_during ?_ ?_ (during_of_begin between effect)
  · rintro now ⟨-, lost | ⟨transaction, active, current⟩⟩
    · exact .inl lost
    · exact .inr ⟨transaction, active, current.names⟩
  intro now _ queried during effect
  refine follows_during ?_ ?_ (during_of_query during effect)
  · rintro now ⟨recorded, lost | ⟨transaction, active, current⟩⟩
    · exact .inl lost
    · exact .inr ⟨transaction, earlier, later, active, files, recorded.2,
        current⟩
  intro now _ inserted during effect
  show (discipline folder base).Follows _
    ((perform .commit).bind Program.pure) inserted
  refine follows_during ?_ ?_ (during_of_insert during effect)
  · rintro now ⟨recorded, lost | ⟨transaction, active, current⟩⟩
    · exact .inl lost
    · refine .inr ⟨transaction, active, ?_, recorded.1⟩
      rw [current.names]
      exact List.cons_ne_nil _ _
  intro now _ committed during effect later rely
  exact (between_of_commit during effect).rely rely

/-- After a failure the connection is given back, and the failure passed on. -/
theorem follows_release_throw (property : View Schema → Prop)
    (failure : Failure) (view : View Schema) :
    (discipline folder base).Follows (Ends property)
      ((perform .release).bind fun _ => (.throw failure : Async Unit)) view :=
  Follows.call_bind (fun _ => True) (fun _ _ => trivial) (fun _ _ => trivial)
    (fun _ _ => trivial) (fun _ _ _ _ _ _ _ => trivial) trivial

/-- One file. -/
theorem follows_applyFile (files : folder.files = earlier ++ file :: later)
    (between : Between earlier.length view) :
    (discipline folder base).Follows (Ends (Between (earlier.length + 1)))
      (applyFile file) view := by
  refine follows_between (fun _ => trivial) ?_ between
  intro now sql read between effect
  obtain ⟨rfl, rfl⟩ := text_of_readFile effect
  refine follows_between (fun _ => trivial) ?_ between
  intro now _ connected between effect
  have tried : (discipline folder base).Follows
      (Ends (Between (earlier.length + 1)))
      (applyText file (folder.text file)) connected :=
    follows_applyText files (between_of_connect between effect)
  refine Follows.bind (Follows.attempt (Follows.tryCatch (tried.mono ?_)))
  rintro now (failure | _) recorded
  · refine Follows.call_bind (fun _ => True) (fun _ _ => trivial)
      (fun now failure => follows_release_throw _ failure now)
      (fun _ _ => trivial) ?_ trivial
    intro _ _ now _ _ later _
    exact follows_release_throw _ failure later
  · refine follows_between (fun _ => trivial) ?_ recorded
    intro now _ released between effect later rely
    obtain ⟨choice, answered⟩ := answer_of_effect effect
    cases answered
    exact between.rely rely

/-- The loop, from the first file that is not recorded on. -/
theorem follows_applyPending (files : folder.files = earlier ++ pending)
    (between : Between earlier.length view) :
    (discipline folder base).Follows (Ends (Recorded folder.files.length))
      (applyPending pending) view := by
  induction pending generalizing earlier view with
  | nil =>
      intro now rely
      rw [files, List.append_nil]
      exact between.1.rely rely
  | cons file pending ih =>
      refine Follows.bind (Follows.mono (follows_applyFile files between) ?_)
      rintro now (failure | _) recorded
      · trivial
      · have split : folder.files = (earlier ++ [file]) ++ pending := by
          rw [files, List.append_assoc]
          rfl
        have further : Between (earlier ++ [file]).length now := by
          rw [List.length_append]
          exact recorded
        exact ih split further

/-- What is left of the files once those recorded are taken out. -/
theorem pending_of_listing {listing recorded : List String}
    (shuffled : listing.Perm folder.entries)
    (files : folder.files = recorded ++ pending) :
    (JavaScript.sort (listing.filter (·.endsWith ".sql"))).filter
      (fun file => file ∉ recorded) = pending := by
  have sorted : JavaScript.sort (listing.filter (·.endsWith ".sql")) =
      recorded ++ pending := by
    rw [← files]
    exact JavaScript.sort_eq_of_perm (shuffled.filter _)
  have distinct := folder.nodup_files
  rw [files, List.nodup_append] at distinct
  rw [sorted, List.filter_append, List.filter_eq_nil_iff.mpr (by simp),
    List.nil_append, List.filter_eq_self.mpr]
  intro file member
  simpa using fun known => distinct.2.2 file known file member rfl

theorem follows_migrate (inactive : ∀ transaction, view.2 ≠ .active transaction) :
    (discipline folder base).Follows (Ends (Recorded folder.files.length))
      migrate view := by
  refine Follows.call_bind (fun view => ∀ transaction,
      view.2 ≠ .active transaction) inactive_of_rely (fun _ _ => trivial)
    (fun _ _ => trivial) ?_ inactive
  intro now _ created inactive effect
  obtain ⟨_, answered⟩ := answer_of_effect effect
  cases answered
  have nothing : Between 0 ({ now.1 with migrations := some now.1.names },
      now.2) :=
    ⟨⟨rfl, Nat.zero_le _⟩, inactive⟩
  refine follows_between (fun _ => trivial) ?_ nothing
  intro now filesOnDisk listed between effect
  obtain ⟨choice, answered⟩ := answer_of_effect effect
  cases answered
  refine follows_between (fun _ => trivial) ?_ between
  intro now alreadyApplied selected between effect
  obtain ⟨⟨pending, files⟩, -⟩ := effect.1
  obtain ⟨rfl, rfl⟩ := recorded_of_selectNames effect
  rw [pending_of_listing choice.shuffled files.symm]
  exact follows_applyPending files.symm
    ⟨⟨between.1.1, le_rfl⟩, between.2⟩

end Programs

/-- What is left of a run, if anything, keeps to the discipline, and has every
file recorded when it ends without an error. -/
def Proceeds (folder : Folder Schema) (base : Schema) (view : View Schema)
    (rest : Option (Async Unit)) : Prop :=
  ∀ program, rest = some program →
    (discipline folder base).Follows (Ends (Recorded folder.files.length))
      program view

namespace Proceeds

variable {view now : View Schema} {call : Call}
  {next : call.Reply → Async Unit} {rescue : Failure → Async Unit}

theorem of_follows {program : Async Unit}
    (follows : (discipline folder base).Follows
      (Ends (Recorded folder.files.length)) program view) :
    Proceeds folder base view (some program) := by
  intro _ same
  cases same
  exact follows

theorem rely {rest : Option (Async Unit)}
    (proceeds : Proceeds folder base view rest)
    (rely : (discipline folder base).Rely view now) :
    Proceeds folder base now rest :=
  fun program same => (proceeds program same).rely rely

/-- A run that has ended without an error. -/
theorem recorded (proceeds : Proceeds folder base view (some (.pure ()))) :
    Recorded folder.files.length view :=
  proceeds _ rfl view ((discipline folder base).rely_refl view)

section Suspended

variable (proceeds : Proceeds folder base view
  (some (.call call next rescue)))

include proceeds

theorem allowed : Allowed folder view call :=
  (proceeds _ rfl view ((discipline folder base).rely_refl view)).1

theorem failed (fallible : call.fallible) (failure : Failure) :
    Proceeds folder base view (some (rescue failure)) := by
  obtain ⟨-, lost, -⟩ :=
    proceeds _ rfl view ((discipline folder base).rely_refl view)
  exact of_follows (lost fallible failure)

theorem refused (migrated : folder.Migrated base view.1)
    (fallible : call.fallible) (failure : Failure) :
    Proceeds folder base (view.1, view.2.abort) (some (rescue failure)) := by
  obtain ⟨-, -, completed⟩ :=
    proceeds _ rfl view ((discipline folder base).rely_refl view)
  have effect := completed (.error failure) _
    ⟨migrated, .inr ⟨fallible, ⟨failure, rfl⟩, rfl⟩⟩
  exact of_follows (effect.2.1 failure rfl)

theorem unanswered (migrated : folder.Migrated base view.1)
    (choice : Choice folder) (fallible : call.fallible) (failure : Failure) :
    Proceeds folder base (answer choice call view.1 view.2).2
      (some (rescue failure)) := by
  obtain ⟨-, -, completed⟩ :=
    proceeds _ rfl view ((discipline folder base).rely_refl view)
  have effect := completed _ _ ⟨migrated, .inl ⟨choice, rfl⟩⟩
  exact of_follows (effect.1 fallible failure)

theorem answered (migrated : folder.Migrated base view.1)
    (choice : Choice folder) :
    Proceeds folder base (answer choice call view.1 view.2).2
      (some (Program.resume next rescue
        (answer choice call view.1 view.2).1)) := by
  obtain ⟨-, -, completed⟩ :=
    proceeds _ rfl view ((discipline folder base).rely_refl view)
  have effect := completed _ _ ⟨migrated, .inl ⟨choice, rfl⟩⟩
  apply of_follows
  cases outcome : (answer choice call view.1 view.2).1 with
  | ok reply => exact effect.2.2 reply outcome
  | error failure => exact effect.2.1 failure outcome

end Suspended

end Proceeds

end Migration

end WebhookDelivery
