import WebhookIngestion.Library.Crashes
import Mathlib.Data.List.Nodup

/-! # Migrations

`migrate.run` wraps each file in a transaction of its own, with the INSERT that records
the file's name; the files are written with a BEGIN and a COMMIT of their own too.  The
server ignores the BEGIN, since a transaction is open, but its COMMIT ends that
transaction, so the INSERT commits by itself.  A run may be killed anywhere, and be started
again. -/
namespace WebhookIngestion
open Programs

/-! ### Files -/

/-- A migration file, over the contents `τ` of the tables: what each statement between its
BEGIN and its COMMIT does to them, if the server accepts it. -/
structure Migration (τ : Type) where
  name : String
  statements : List (τ → Option τ)
  statements_ne : statements ≠ []

/-- `sorted(MIGRATIONS_DIR.glob("*.sql"))`. -/
structure MigrationsDir (τ : Type) where
  files : List (Migration τ)
  sorted : files.Pairwise fun f g => f.name < g.name

/-- The commands of a file. -/
inductive Command (τ : Type) where
  | begin
  | statement (i : Nat) (effect : τ → Option τ)
  | commit

/-- The text of a file. -/
def Migration.sql {τ : Type} (f : Migration τ) : List (Command τ) :=
  .begin :: f.statements.mapIdx Command.statement ++ [.commit]

/-! ### The server -/

/-- The rows: the tables, `schema_migrations` if it exists, and, as a ghost, the file
statements executed so far, by file and position. -/
structure MigratedDb (τ : Type) where
  tables : τ
  schemaMigrations : Option (List String)
  executed : List (String × Nat)

/-- The transaction of the connection; an error aborts it. -/
inductive Transaction (τ : Type) where
  | idle
  | active (view : MigratedDb τ)
  | aborted

structure Connection (τ : Type) where
  committed : MigratedDb τ
  transaction : Transaction τ

namespace Connection
variable {τ : Type}

/-- A statement: in a transaction it changes what the transaction sees, outside of one it
commits by itself. -/
def exec (statement : MigratedDb τ → Option (MigratedDb τ)) (c : Connection τ) : Except Unit Unit × Connection τ :=
  match c.transaction with
  | .idle =>
    match statement c.committed with
    | some db => (.ok (), ⟨db, .idle⟩)
    | none => (.error (), c)
  | .active view =>
    match statement view with
    | some db => (.ok (), ⟨c.committed, .active db⟩)
    | none => (.error (), ⟨c.committed, .aborted⟩)
  | .aborted => (.error (), c)

/-- BEGIN: inside a transaction only a warning. -/
def begin (c : Connection τ) : Except Unit Unit × Connection τ :=
  match c.transaction with
  | .idle => (.ok (), ⟨c.committed, .active c.committed⟩)
  | .active _ => (.ok (), c)
  | .aborted => (.error (), c)

/-- COMMIT: outside of a transaction only a warning, and a rollback of one that was aborted. -/
def commit (c : Connection τ) : Except Unit Unit × Connection τ :=
  match c.transaction with
  | .idle => (.ok (), c)
  | .active view => (.ok (), ⟨view, .idle⟩)
  | .aborted => (.ok (), ⟨c.committed, .idle⟩)

def rollback (c : Connection τ) : Except Unit Unit × Connection τ := (.ok (), ⟨c.committed, .idle⟩)

/-- One command of a file. -/
def execCommand (file : String) : Command τ → Connection τ → Except Unit Unit × Connection τ
  | .begin => begin
  | .commit => commit
  | .statement i effect => exec fun db =>
    (effect db.tables).map fun tables => { db with tables, executed := db.executed ++ [(file, i)] }

end Connection

/-! ### The runner -/

/-- What the runner sends; a file's text goes as one message, and the server executes its
commands in turn. -/
inductive MigrationOp (τ : Type) where
  | ensureSchemaTable
  | selectApplied
  | startTransaction
  | execute (file : String) (command : Command τ)
  | insertName (name : String)
  | commitTransaction
  | rollbackTransaction

@[reducible] def MigrationOp.Result {τ : Type} : MigrationOp τ → Type
  | .selectApplied => List String
  | _ => Unit

namespace MigrationOp
variable {τ : Type}

def handle : (o : MigrationOp τ) → Connection τ → Except Unit o.Result × Connection τ
  | .ensureSchemaTable => Connection.exec fun db =>
    some { db with schemaMigrations := some (db.schemaMigrations.getD []) }
  | .selectApplied => fun c =>
    match c.committed.schemaMigrations with
    | some names => (.ok names, c)
    | none => (.error (), c)
  | .startTransaction => Connection.begin
  | .execute file command => Connection.execCommand file command
  | .insertName name => Connection.exec fun db =>
    db.schemaMigrations.map fun names =>
      { db with schemaMigrations := some (if name ∈ names then names else names ++ [name]) }
  | .commitTransaction => Connection.commit
  | .rollbackTransaction => Connection.rollback

/-- Whether the server has just executed the COMMIT of a file. -/
def isFileCommit : MigrationOp τ → Bool
  | .execute _ .commit => true
  | _ => false

end MigrationOp

abbrev MigrationJob (τ : Type) := Program Unit (MigrationOp τ) MigrationOp.Result

section Runner
variable {τ : Type}

/-- `conn.execute(sql)`. -/
def executeSql (file : String) : List (Command τ) → MigrationJob τ Unit
  | [] => return ()
  | command :: sql => do
    .perform (MigrationOp.execute file command)
    executeSql file sql

/-- One file, in `conn.transaction()`, which rolls back what an exception leaves. -/
def applyMigration (f : Migration τ) : MigrationJob τ Unit := do
  .perform (MigrationOp.startTransaction (τ := τ))
  (do executeSql f.name f.sql
      .perform (MigrationOp.insertName (τ := τ) f.name) : MigrationJob τ Unit).tryCatch fun exc => do
    .perform (MigrationOp.rollbackTransaction (τ := τ))
    .raise exc
  .perform (MigrationOp.commitTransaction (τ := τ))

/-- The loop over the files. -/
def applyMigrations (already : List String) : List (Migration τ) → MigrationJob τ Unit
  | [] => return ()
  | f :: files => do
    if f.name ∈ already then applyMigrations already files
    else
      applyMigration f
      applyMigrations already files

/-- `run`. -/
def runMigrations (dir : MigrationsDir τ) : MigrationJob τ Unit := do
  .perform (MigrationOp.ensureSchemaTable (τ := τ))
  let already ← .perform (MigrationOp.selectApplied (τ := τ))
  applyMigrations already dir.files

end Runner

/-! ### What has been done -/

section Done
variable {τ : Type}

/-- The executions of a file's statements, each of them once. -/
def Migration.log (f : Migration τ) : List (String × Nat) := (List.range f.statements.length).map fun i => (f.name, i)

/-- The executions of a file's statements so far. -/
def MigratedDb.executionsOf (db : MigratedDb τ) (name : String) : List (String × Nat) :=
  db.executed.filter fun step => step.1 = name

def MigratedDb.recorded (db : MigratedDb τ) : List String := db.schemaMigrations.getD []

/-- A file's statements are applied. -/
def MigratedDb.Applied (db : MigratedDb τ) (f : Migration τ) : Prop := ∀ step ∈ f.log, step ∈ db.executed

/-- **Statements are applied exactly for the files that are recorded.** -/
def MigratedDb.CrashSafe (db : MigratedDb τ) (dir : MigrationsDir τ) : Prop :=
  ∀ f ∈ dir.files, (db.Applied f ↔ f.name ∈ db.recorded)

/-- Each statement of a recorded file was executed once, and no other. -/
def MigratedDb.Settled (db : MigratedDb τ) (dir : MigrationsDir τ) : Prop :=
  ∀ f ∈ dir.files, db.executionsOf f.name = if f.name ∈ db.recorded then f.log else []

/-- After the statements of a file. -/
def MigratedDb.execute (db : MigratedDb τ) (f : Migration τ) (tables : τ) : MigratedDb τ :=
  { db with tables, executed := db.executed ++ f.log }

/-- After the INSERT that records a file. -/
def MigratedDb.record (db : MigratedDb τ) (names : List String) (name : String) : MigratedDb τ :=
  { db with schemaMigrations := some (names ++ [name]) }

variable {f g : Migration τ} {dir : MigrationsDir τ} {db : MigratedDb τ}

theorem Migration.mem_log {step : String × Nat} : step ∈ f.log ↔ step.1 = f.name ∧ step.2 < f.statements.length := by
  obtain ⟨name, i⟩ := step
  simp only [Migration.log, List.mem_map, List.mem_range, Prod.mk.injEq]
  constructor
  · rintro ⟨j, hj, hname, rfl⟩
    exact ⟨hname.symm, hj⟩
  · rintro ⟨rfl, hi⟩
    exact ⟨i, hi, rfl, rfl⟩

theorem Migration.log_ne : f.log ≠ [] := by
  intro h
  have hlength := congrArg List.length h
  rw [Migration.log, List.length_map, List.length_range, List.length_nil] at hlength
  exact f.statements_ne (List.eq_nil_of_length_eq_zero hlength)

theorem Migration.filter_log (name : String) :
    f.log.filter (fun step => step.1 = name) = if f.name = name then f.log else [] := by
  split
  · next hname =>
    refine List.filter_eq_self.mpr fun step hstep => ?_
    rw [(mem_log.mp hstep).1, hname, decide_eq_true_iff]
  · next hname =>
    refine List.filter_eq_nil_iff.mpr fun step hstep => ?_
    rw [(mem_log.mp hstep).1, decide_eq_true_iff]
    exact hname

theorem MigratedDb.Settled.applied_iff (h : db.Settled dir) (hf : f ∈ dir.files) :
    db.Applied f ↔ f.name ∈ db.recorded := by
  have hexecutions := h f hf
  constructor
  · intro happlied
    by_contra hunrecorded
    rw [if_neg hunrecorded] at hexecutions
    obtain ⟨step, hstep⟩ := List.exists_mem_of_ne_nil _ f.log_ne
    have hmem : step ∈ db.executionsOf f.name :=
      List.mem_filter.mpr ⟨happlied step hstep, by rw [(Migration.mem_log.mp hstep).1, decide_eq_true_iff]⟩
    rw [hexecutions] at hmem
    cases hmem
  · intro hrecorded step hstep
    rw [if_pos hrecorded] at hexecutions
    exact (List.mem_filter.mp (hexecutions ▸ hstep)).1

theorem MigratedDb.Settled.crashSafe (h : db.Settled dir) : db.CrashSafe dir := fun _ hf => h.applied_iff hf

theorem MigratedDb.executionsOf_execute (tables : τ) (name : String) :
    (db.execute f tables).executionsOf name = db.executionsOf name ++ if f.name = name then f.log else [] := by
  rw [executionsOf, execute, List.filter_append, Migration.filter_log]
  rfl

/-- **Executed and not recorded**: the file's statements are applied without its name. -/
theorem MigratedDb.not_crashSafe_execute (hf : f ∈ dir.files) (hunrecorded : f.name ∉ db.recorded) (tables : τ) :
    ¬ (db.execute f tables).CrashSafe dir := by
  intro h
  exact hunrecorded ((h f hf).mp fun step hstep => List.mem_append_right _ hstep)

theorem MigrationsDir.names_nodup (dir : MigrationsDir τ) : (dir.files.map Migration.name).Nodup := by
  rw [List.Nodup, List.pairwise_map]
  refine dir.sorted.imp fun hlt heq => ?_
  rw [heq] at hlt
  exact String.lt_irrefl _ hlt

theorem MigrationsDir.eq_of_name (hf : f ∈ dir.files) (hg : g ∈ dir.files) (h : f.name = g.name) : f = g :=
  List.inj_on_of_nodup_map dir.names_nodup hf hg h

/-- Executed and recorded, the file is settled, and the others are as they were. -/
theorem MigratedDb.Settled.record (h : db.Settled dir) (hf : f ∈ dir.files) {names : List String}
    (hnames : db.schemaMigrations = some names) (hunrecorded : f.name ∉ names) (tables : τ) :
    ((db.execute f tables).record names f.name).Settled dir := by
  intro g hg
  have hexecutions : ((db.execute f tables).record names f.name).executionsOf g.name =
      db.executionsOf g.name ++ if f.name = g.name then f.log else [] := executionsOf_execute tables g.name
  have hrecorded :
      g.name ∈ ((db.execute f tables).record names f.name).recorded ↔ g.name ∈ names ∨ g.name = f.name := by
    rw [MigratedDb.recorded, MigratedDb.record, Option.getD_some, List.mem_append, List.mem_singleton]
  have hdb : db.recorded = names := by rw [MigratedDb.recorded, hnames, Option.getD_some]
  rw [hexecutions, h g hg, hdb]
  by_cases hname : g.name = f.name
  · obtain rfl := dir.eq_of_name hg hf hname
    rw [if_neg hunrecorded, if_pos rfl, if_pos (hrecorded.mpr (.inr rfl)), List.nil_append]
  · rw [if_neg (Ne.symm hname), List.append_nil]
    exact if_congr ⟨fun h => hrecorded.mpr (.inl h), fun h => (hrecorded.mp h).resolve_right hname⟩ rfl rfl

end Done

/-! ### One file -/

section Files
variable {τ : Type} {f : Migration τ} {dir : MigrationsDir τ} {db : MigratedDb τ}

/-- **What the server has committed** while a file is applied, by the command it executed last. -/
inductive FileStage (f : Migration τ) (db : MigratedDb τ) (names : List String) : MigrationOp τ → MigratedDb τ → Prop
  | before {o : MigrationOp τ} (h : o.isFileCommit = false) : FileStage f db names o db
  | unrecorded {o : MigrationOp τ} (h : o.isFileCommit = true) (tables : τ) :
      FileStage f db names o (db.execute f tables)
  | recorded {o : MigrationOp τ} (h : o.isFileCommit = false) (tables : τ) :
      FileStage f db names o ((db.execute f tables).record names f.name)

/-- Statements inside a transaction: nothing is committed, and an error aborts it. -/
theorem executeStatements_throughout {I : MigrationOp τ → Connection τ → Prop}
    {Q : Except Unit Unit → Connection τ → Prop} {file : String} {rest : List (Command τ)}
    (hi : ∀ i effect transaction, I (.execute file (.statement i effect)) ⟨db, transaction⟩)
    (herror : Q (.error ()) ⟨db, .aborted⟩) {statements : List (τ → Option τ)} {k : Nat} {view : MigratedDb τ}
    (hrest : ∀ tables, Program.Throughout MigrationOp.handle I Q (executeSql file rest)
      ⟨db, .active { view with
        tables, executed := view.executed ++ (List.range' k statements.length).map fun i => (file, i) }⟩) :
    Program.Throughout MigrationOp.handle I Q
      (executeSql file (statements.mapIdx (fun i => Command.statement (i + k)) ++ rest)) ⟨db, .active view⟩ := by
  induction statements generalizing k view with
  | nil =>
    have hview := hrest view.tables
    simpa using hview
  | cons effect statements ih =>
    rw [List.mapIdx_cons, List.cons_append, executeSql]
    cases heffect : effect view.tables with
    | none =>
      have hhandle : MigrationOp.handle (.execute file (.statement (0 + k) effect)) ⟨db, .active view⟩ =
          (.error (), ⟨db, .aborted⟩) := by
        simp only [MigrationOp.handle, Connection.execCommand, Connection.exec, heffect, Option.map_none]
      exact .perform_error hhandle (hi _ _ _) herror
    | some tables =>
      have hhandle : MigrationOp.handle (.execute file (.statement (0 + k) effect)) ⟨db, .active view⟩ =
          (.ok (), ⟨db, .active { view with tables, executed := view.executed ++ [(file, 0 + k)] }⟩) := by
        simp only [MigrationOp.handle, Connection.execCommand, Connection.exec, heffect, Option.map_some]
      refine .perform_bind hhandle (hi _ _ _) ?_
      have hindex : (fun i => Command.statement (τ := τ) (i + 1 + k)) = fun i => Command.statement (i + (k + 1)) := by
        funext i
        rw [Nat.add_assoc, Nat.add_comm 1 k]
      rw [hindex]
      refine ih fun tables' => ?_
      have hview := hrest tables'
      rw [List.length_cons, List.range'_succ, List.map_cons] at hview
      simpa [List.append_assoc] using hview

/-- The text of a file in an open transaction: its COMMIT ends that one. -/
theorem executeSql_throughout (names : List String) :
    Program.Throughout MigrationOp.handle (fun o c => FileStage f db names o c.committed)
      (fun r c => (∃ tables, r = .ok () ∧ c = ⟨db.execute f tables, .idle⟩) ∨ r = .error () ∧ c = ⟨db, .aborted⟩)
      (executeSql f.name f.sql) ⟨db, .active db⟩ := by
  rw [Migration.sql, List.cons_append, executeSql]
  have hbegin : MigrationOp.handle (.execute f.name .begin) (⟨db, .active db⟩ : Connection τ) =
      (.ok (), ⟨db, .active db⟩) := rfl
  refine .perform_bind hbegin (.before rfl) ?_
  refine executeStatements_throughout (k := 0) (fun _ _ _ => .before rfl) (.inr ⟨rfl, rfl⟩) fun tables => ?_
  rw [← List.range_eq_range']
  have hcommit : MigrationOp.handle (.execute f.name .commit) (⟨db, .active (db.execute f tables)⟩ : Connection τ) =
      (.ok (), ⟨db.execute f tables, .idle⟩) := rfl
  exact .perform_bind hcommit (.unrecorded rfl tables) (.inl ⟨tables, rfl, rfl⟩)

theorem applyMigration_throughout {names : List String} (hnames : db.schemaMigrations = some names)
    (hunrecorded : f.name ∉ names) :
    Program.Throughout MigrationOp.handle (fun o c => FileStage f db names o c.committed)
      (fun r c => (∃ tables, r = .ok () ∧ c = ⟨(db.execute f tables).record names f.name, .idle⟩) ∨
        r = .error () ∧ c = ⟨db, .idle⟩)
      (applyMigration f) ⟨db, .idle⟩ := by
  have hbody : Program.Throughout MigrationOp.handle (fun o c => FileStage f db names o c.committed)
      (fun r c => (∃ tables, r = .ok () ∧ c = ⟨(db.execute f tables).record names f.name, .idle⟩) ∨
        r = .error () ∧ c = ⟨db, .aborted⟩)
      (do executeSql f.name f.sql
          .perform (MigrationOp.insertName f.name)) ⟨db, .active db⟩ := by
    refine .bind (executeSql_throughout names) ?_ ?_
    · rintro _ c (⟨tables, -, rfl⟩ | ⟨h, -⟩)
      · have hinsert : MigrationOp.handle (.insertName f.name) (⟨db.execute f tables, .idle⟩ : Connection τ) =
            (.ok (), ⟨(db.execute f tables).record names f.name, .idle⟩) := by
          simp only [MigrationOp.handle, Connection.exec, MigratedDb.execute, hnames, Option.map_some,
            if_neg hunrecorded]
          rfl
        refine Program.Throughout.perform (o := MigrationOp.insertName f.name) ?_ ?_
        · rw [hinsert]
          exact .recorded rfl tables
        · rw [hinsert]
          exact .inl ⟨tables, rfl, rfl⟩
      · cases h
    · rintro e c (⟨tables, h, -⟩ | ⟨h, hc⟩)
      · cases h
      · exact .inr ⟨h, hc⟩
  have hguarded : Program.Throughout MigrationOp.handle (fun o c => FileStage f db names o c.committed)
      (fun r c => (∃ tables, r = .ok () ∧ c = ⟨(db.execute f tables).record names f.name, .idle⟩) ∨
        r = .error () ∧ c = ⟨db, .idle⟩)
      ((do executeSql f.name f.sql
           .perform (MigrationOp.insertName f.name) : MigrationJob τ Unit).tryCatch fun exc => do
        .perform (MigrationOp.rollbackTransaction (τ := τ))
        .raise exc) ⟨db, .active db⟩ := by
    refine .tryCatch hbody ?_ ?_
    · rintro _ c (h | ⟨h, -⟩)
      · exact .inl h
      · cases h
    · rintro e c (⟨tables, h, -⟩ | ⟨-, rfl⟩)
      · cases h
      · have hrollback :
            MigrationOp.handle .rollbackTransaction (⟨db, .aborted⟩ : Connection τ) = (.ok (), ⟨db, .idle⟩) := rfl
        exact .perform_bind hrollback (.before rfl) (.inr ⟨rfl, rfl⟩)
  rw [applyMigration]
  have hstart : MigrationOp.handle .startTransaction (⟨db, .idle⟩ : Connection τ) = (.ok (), ⟨db, .active db⟩) := rfl
  refine .perform_bind hstart (.before rfl) ?_
  refine .bind hguarded ?_ ?_
  · rintro _ c (⟨tables, -, rfl⟩ | ⟨h, -⟩)
    · -- the transaction is over: COMMIT is only a warning
      exact Program.Throughout.perform (o := MigrationOp.commitTransaction (τ := τ)) (.recorded rfl tables)
        (.inl ⟨tables, rfl, rfl⟩)
    · cases h
  · rintro e c (⟨tables, h, -⟩ | ⟨-, rfl⟩)
    · cases h
    · exact .inr ⟨rfl, rfl⟩

/-- At a kill point: a file is applied and not recorded if the server has just executed its
COMMIT, and all is settled otherwise. -/
def SettledAt (dir : MigrationsDir τ) (o : MigrationOp τ) (db : MigratedDb τ) : Prop :=
  o.isFileCommit = true ∧ ¬ db.CrashSafe dir ∨ o.isFileCommit = false ∧ db.Settled dir

theorem FileStage.settledAt {names : List String} {o : MigrationOp τ} {db' : MigratedDb τ}
    (h : FileStage f db names o db') (hdb : db.Settled dir) (hf : f ∈ dir.files)
    (hnames : db.schemaMigrations = some names) (hunrecorded : f.name ∉ names) : SettledAt dir o db' := by
  cases h with
  | before h => exact .inr ⟨h, hdb⟩
  | unrecorded h tables =>
    refine .inl ⟨h, MigratedDb.not_crashSafe_execute hf ?_ tables⟩
    rwa [MigratedDb.recorded, hnames, Option.getD_some]
  | recorded h tables => exact .inr ⟨h, hdb.record hf hnames hunrecorded tables⟩

/-! ### A run -/

theorem applyMigrations_throughout {already names : List String} {files : List (Migration τ)}
    (hfiles : ∀ f ∈ files, f ∈ dir.files) (hnodup : (files.map Migration.name).Nodup)
    (hnames : db.schemaMigrations = some names) (halready : ∀ f ∈ files, f.name ∈ already ↔ f.name ∈ names)
    (hdb : db.Settled dir) :
    Program.Throughout MigrationOp.handle (fun o c => SettledAt dir o c.committed)
      (fun r c => c.committed.Settled dir ∧ (r = .ok () →
        ∀ name, name ∈ names ∨ name ∈ files.map Migration.name → name ∈ c.committed.recorded))
      (applyMigrations already files) ⟨db, .idle⟩ := by
  induction files generalizing db names with
  | nil =>
    refine ⟨hdb, fun _ name hname => ?_⟩
    rw [MigratedDb.recorded, hnames, Option.getD_some]
    exact hname.resolve_right List.not_mem_nil
  | cons f files ih =>
    have hrest : ∀ g ∈ files, g ∈ dir.files := fun g hg => hfiles g (List.mem_cons_of_mem _ hg)
    obtain ⟨hnew, hnodup⟩ := List.nodup_cons.mp hnodup
    rw [applyMigrations]
    by_cases hskip : f.name ∈ already
    · rw [if_pos hskip]
      refine (ih hrest hnodup hnames (fun g hg => halready g (List.mem_cons_of_mem _ hg)) hdb).weaken
        (fun _ _ h => h) ?_
      rintro r c ⟨hc, hrecorded⟩
      refine ⟨hc, fun hok name hname => hrecorded hok name ?_⟩
      rcases hname with hname | hname
      · exact .inl hname
      · rcases List.mem_cons.mp hname with rfl | hname
        · exact .inl ((halready f List.mem_cons_self).mp hskip)
        · exact .inr hname
    · rw [if_neg hskip]
      have hf : f ∈ dir.files := hfiles f List.mem_cons_self
      have hunrecorded : f.name ∉ names := mt (halready f List.mem_cons_self).mpr hskip
      have hfile := (applyMigration_throughout hnames hunrecorded).weaken
        (fun o c h => FileStage.settledAt h hdb hf hnames hunrecorded) fun _ _ h => h
      refine hfile.bind ?_ ?_
      · rintro _ c (⟨tables, -, rfl⟩ | ⟨h, -⟩)
        · have halready' : ∀ g ∈ files, g.name ∈ already ↔ g.name ∈ names ++ [f.name] := by
            intro g hg
            have hne : g.name ≠ f.name := fun h => hnew (h ▸ List.mem_map_of_mem hg)
            rw [List.mem_append, List.mem_singleton, halready g (List.mem_cons_of_mem _ hg)]
            exact (or_iff_left hne).symm
          refine (ih hrest hnodup rfl halready' (hdb.record hf hnames hunrecorded tables)).weaken (fun _ _ h => h) ?_
          rintro r c ⟨hc, hrecorded⟩
          refine ⟨hc, fun hok name hname => hrecorded hok name ?_⟩
          rw [List.mem_append, List.mem_singleton]
          rcases hname with hname | hname
          · exact .inl (.inl hname)
          · rcases List.mem_cons.mp hname with rfl | hname
            · exact .inl (.inr rfl)
            · exact .inr hname
        · cases h
      · rintro e c (⟨tables, h, -⟩ | ⟨-, rfl⟩)
        · cases h
        · refine ⟨hdb, fun h => ?_⟩
          cases h

/-- **A run, killed or not**: all is settled after each of its commands but a file's COMMIT. -/
theorem runMigrations_throughout (hdb : db.Settled dir) :
    Program.Throughout MigrationOp.handle (fun o c => SettledAt dir o c.committed)
      (fun r c => c.committed.Settled dir ∧ (r = .ok () → ∀ f ∈ dir.files, f.name ∈ c.committed.recorded))
      (runMigrations dir) ⟨db, .idle⟩ := by
  have hensured : MigratedDb.Settled { db with schemaMigrations := some db.recorded } dir := hdb
  rw [runMigrations]
  have hensure : MigrationOp.handle .ensureSchemaTable (⟨db, .idle⟩ : Connection τ) =
      (.ok (), ⟨{ db with schemaMigrations := some db.recorded }, .idle⟩) := rfl
  refine .perform_bind hensure (.inr ⟨rfl, hensured⟩) ?_
  have hselect : MigrationOp.handle .selectApplied
      (⟨{ db with schemaMigrations := some db.recorded }, .idle⟩ : Connection τ) =
        (.ok db.recorded, ⟨{ db with schemaMigrations := some db.recorded }, .idle⟩) := rfl
  refine .perform_bind hselect (.inr ⟨rfl, hensured⟩) ?_
  refine (applyMigrations_throughout (fun _ h => h) dir.names_nodup rfl (fun _ _ => Iff.rfl) hensured).weaken
    (fun _ _ h => h) ?_
  rintro r c ⟨hc, hrecorded⟩
  exact ⟨hc, fun hok f hf => hrecorded hok f.name (.inr (List.mem_map_of_mem hf))⟩

end Files

/-! ### Runs that are killed -/

section Runs
variable {τ : Type}

/-- A database before the first run. -/
def MigratedDb.fresh (tables : τ) : MigratedDb τ := ⟨tables, none, []⟩

/-- What a run that is killed after `n` commands executed last, and leaves. -/
def killedRun (dir : MigrationsDir τ) (db : MigratedDb τ) (n : Nat) : Option (MigrationOp τ) × MigratedDb τ :=
  let killed := Program.killed MigrationOp.handle n (runMigrations dir) ⟨db, .idle⟩
  (killed.1, killed.2.committed)

/-- The run is killed between a file's COMMIT and the INSERT that records it. -/
def KilledUnrecorded (dir : MigrationsDir τ) (db : MigratedDb τ) (n : Nat) : Prop :=
  (killedRun dir db n).1.any MigrationOp.isFileCommit = true

/-- The database after some runs, each killed after a number of commands. -/
def afterRuns (dir : MigrationsDir τ) (db : MigratedDb τ) (kills : List Nat) : MigratedDb τ :=
  kills.foldl (fun db n => (killedRun dir db n).2) db

/-- A rerun that completes has every file's statements executed exactly once in total. -/
def RerunCompletes (dir : MigrationsDir τ) (db : MigratedDb τ) : Prop :=
  (Program.run MigrationOp.handle (runMigrations dir) ⟨db, .idle⟩).1 = .ok () →
    ∀ f ∈ dir.files,
      (Program.run MigrationOp.handle (runMigrations dir) ⟨db, .idle⟩).2.committed.executionsOf f.name = f.log

variable {dir : MigrationsDir τ} {db : MigratedDb τ}

theorem settled_fresh (tables : τ) : (MigratedDb.fresh tables).Settled dir := by
  intro f _
  exact (if_neg List.not_mem_nil).symm

theorem settled_killedRun (hdb : db.Settled dir) {n : Nat} (hkill : ¬ KilledUnrecorded dir db n) :
    (killedRun dir db n).2.Settled dir := by
  rcases (runMigrations_throughout hdb).killed n with ⟨o, ho, ⟨hcommit, -⟩ | ⟨-, hsettled⟩⟩ | hnone
  · refine absurd ?_ hkill
    rw [KilledUnrecorded, killedRun, ho]
    exact hcommit
  · exact hsettled
  · rw [killedRun, hnone]
    exact hdb

theorem not_crashSafe_killedRun (hdb : db.Settled dir) {n : Nat} (hkill : KilledUnrecorded dir db n) :
    ¬ (killedRun dir db n).2.CrashSafe dir := by
  rcases (runMigrations_throughout hdb).killed n with ⟨o, ho, ⟨-, hunsafe⟩ | ⟨hcommit, -⟩⟩ | hnone
  · exact hunsafe
  · rw [KilledUnrecorded, killedRun, ho] at hkill
    cases hcommit.symm.trans hkill
  · rw [KilledUnrecorded, killedRun, hnone] at hkill
    cases hkill

theorem rerunCompletes_of_settled (hdb : db.Settled dir) : RerunCompletes dir db := by
  intro hok f hf
  obtain ⟨hsettled, hrecorded⟩ := (runMigrations_throughout hdb).run
  rw [hsettled f hf, if_pos (hrecorded hok f hf)]

theorem crashSafe_iff_of_settled (hdb : db.Settled dir) (kills : List Nat) :
    (∀ earlier, earlier <+: kills → (afterRuns dir db earlier).CrashSafe dir ∧
      RerunCompletes dir (afterRuns dir db earlier)) ↔
    ∀ earlier n later, kills = earlier ++ n :: later → ¬ KilledUnrecorded dir (afterRuns dir db earlier) n := by
  induction kills generalizing db with
  | nil =>
    constructor
    · intro _ earlier n later h
      simp at h
    · intro _ earlier hearlier
      obtain rfl := List.prefix_nil.mp hearlier
      exact ⟨hdb.crashSafe, rerunCompletes_of_settled hdb⟩
  | cons n kills ih =>
    by_cases hkill : KilledUnrecorded dir db n
    · refine iff_of_false (fun h => ?_) fun h => h [] n kills rfl hkill
      exact not_crashSafe_killedRun hdb hkill (h [n] ⟨kills, rfl⟩).1
    · have ih := ih (settled_killedRun hdb hkill)
      constructor
      · intro h earlier m later hkills
        cases earlier with
        | nil =>
          obtain ⟨rfl, -⟩ := List.cons.inj hkills
          exact hkill
        | cons first earlier =>
          obtain ⟨rfl, htail⟩ := List.cons.inj hkills
          exact ih.mp (fun earlier' hearlier => h (n :: earlier') (List.cons_prefix_cons.mpr ⟨rfl, hearlier⟩))
            earlier m later htail
      · intro h earlier hearlier
        cases earlier with
        | nil => exact ⟨hdb.crashSafe, rerunCompletes_of_settled hdb⟩
        | cons first earlier =>
          obtain ⟨rfl, htail⟩ := List.cons_prefix_cons.mp hearlier
          exact ih.mpr (fun earlier' m later hkills => h (first :: earlier') m later (by rw [hkills]; rfl))
            earlier htail

/-- **Migrations are crash-safe unless a run is killed before it has recorded what is committed**:
after every sequence of runs, each killed anywhere, statements are applied exactly for the recorded
files, and a rerun that completes executes each of them once in total, if and only if no
run is killed between a file's COMMIT and its INSERT. -/
theorem crashSafe_iff (dir : MigrationsDir τ) (tables : τ) (kills : List Nat) :
    (∀ earlier, earlier <+: kills → (afterRuns dir (.fresh tables) earlier).CrashSafe dir ∧
      RerunCompletes dir (afterRuns dir (.fresh tables) earlier)) ↔
    ∀ earlier n later, kills = earlier ++ n :: later →
      ¬ KilledUnrecorded dir (afterRuns dir (.fresh tables) earlier) n :=
  crashSafe_iff_of_settled (settled_fresh tables) kills

end Runs

/-! ### A constraint that is added twice -/

/-- A file of one statement, which adds a constraint; the tables are the names of the constraints. -/
def statusCheck : Migration (List String) where
  name := "004_operational_indexes.sql"
  statements := [fun constraints => if "raw_events_status_check" ∈ constraints then none
    else some (constraints ++ ["raw_events_status_check"])]
  statements_ne := List.cons_ne_nil _ _

def statusCheckDir : MigrationsDir (List String) where
  files := [statusCheck]
  sorted := List.pairwise_singleton _ _

/-- **Killed after the file's COMMIT**, the run leaves a constraint that no file is recorded for,
and every later run fails on it. -/
theorem killed_before_recorded :
    KilledUnrecorded statusCheckDir (.fresh []) 6 ∧
    ¬ (afterRuns statusCheckDir (.fresh []) [6]).CrashSafe statusCheckDir ∧
    (Program.run MigrationOp.handle (runMigrations statusCheckDir)
      ⟨afterRuns statusCheckDir (.fresh []) [6], .idle⟩).1 = .error () := by
  have hkill : KilledUnrecorded statusCheckDir (.fresh []) 6 := rfl
  exact ⟨hkill, not_crashSafe_killedRun (settled_fresh []) hkill, rfl⟩

end WebhookIngestion
