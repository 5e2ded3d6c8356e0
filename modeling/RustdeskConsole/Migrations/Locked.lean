import Mathlib.Data.List.Nodup
import RustdeskConsole.Database.Repair
import RustdeskConsole.Effects.Embedding

namespace RustdeskConsole.Migrations

open Effects
open Database (SchemaDiffQuery EntityMetadata repairQueries isDrop undefinedColumn destructive)

/-- A failed call, or a thrown message. -/
inductive Failure
  | database
  | error (message : String)
  deriving DecidableEq

structure Table where
  tablePath : String
  columns : List String

inductive Command
  | initializeDataSource
  | connect
  | getLock
  | releaseLock
  | release
  | destroy
  | executedMigrations
  | getTables (tablePaths : List String)
  | schemaLog
  | hasHistory
  | getTable (tablePath : String)
  | query (q : SchemaDiffQuery)
  | showMigrations
  | insertMigration (name : String)
  | insertExecuted (name : String)
  | return
  deriving DecidableEq

@[reducible] def Reply : Command → Type
  | .getLock => Except Failure (Option ℕ)
  | .executedMigrations => Except Failure (List String)
  | .getTables _ => Except Failure (List Table)
  | .schemaLog => Except Failure (List SchemaDiffQuery)
  | .hasHistory | .showMigrations => Except Failure Bool
  | .getTable _ => Except Failure (Option Table)
  | .query _ => Except Failure String
  | _ => Except Failure Unit

abbrev Handler := Process Command Reply Unit Failure

/-- What a migration may send. -/
def IsStatement : Command → Prop
  | .query _ | .getTable _ => True
  | _ => False

/-- How `MigrationExecutor` runs migrations: it reads what is recorded, sends what migrations
send, and records what it has not found there and not recorded since, each time once. -/
def migrationExecutor : Protocol (Option (List String)) Command Reply where
  allows known
    | .executedMigrations | .query _ | .getTable _ => True
    | .insertExecuted name => ∃ names, known = some names ∧ name ∉ names
    | _ => False
  after known
    | .executedMigrations, .ok executed => some executed
    | .insertExecuted name, _ => known.map (· ++ [name])
    | _, _ => known

/-- A server with its release: its registered migrations, what TypeORM does to run them, its
entities, and what a schema needs to match them. -/
structure Server (σ : Type) where
  migrations : List String
  runMigrations : Handler Unit
  executes : Follows migrationExecutor none runMigrations fun _ _ ↦ True
  entityMetadatas : List EntityMetadata
  diff : σ → List SchemaDiffQuery

/-- What the database makes of a schema. -/
structure Database (σ : Type) where
  tables : σ → List Table
  run : SchemaDiffQuery → σ → σ

/-- How a call fails, if it does, whether it was carried out all the same, and whether
its server dies of it; whether the lock is granted, or else refused at once, and whether
a list of the executed migrations creates their table; what a query returns. -/
structure Choice where
  failure : Option Failure
  done : Bool
  killed : Bool
  granted : Bool
  refusal : Bool
  creates : Bool
  rows : String

/-- The schema, the names in the table of migrations if it is there, the server that has
the lock, the schemas that were taken for the initial one, and who has returned. -/
structure World (σ : Type) where
  schema : σ
  history : Option (List String)
  lock : Option ℕ
  baselined : List (ℕ × σ)
  returned : List ℕ

variable {σ : Type}

def World.recorded (w : World σ) : List String := w.history.getD []

def World.free (id : ℕ) (w : World σ) : World σ :=
  { w with lock := if w.lock = some id then none else w.lock }

def World.record (name : String) (w : World σ) : World σ :=
  { w with history := some (w.recorded ++ [name]) }

def Choice.change (o : Choice) (w w' : World σ) : World σ :=
  if o.failure.isNone || o.done then w' else w

def Choice.grants (o : Choice) (w : World σ) : Bool :=
  (o.failure.isNone || o.done) && o.granted && w.lock.isNone

def Choice.answer {α : Type} (o : Choice) (a : α) : Except Failure α :=
  match o.failure with
  | some failure => .error failure
  | none => .ok a

def effect (db : Database σ) (id : ℕ) (c : Command) (o : Choice) (w : World σ) : World σ :=
  match c with
  | .getLock => if o.grants w then { w with lock := some id } else w
  | .releaseLock | .destroy => o.change w (w.free id)
  | .executedMigrations => if o.creates then { w with history := some w.recorded } else w
  | .query q => o.change w { w with schema := db.run q w.schema }
  | .showMigrations => o.change w { w with history := some w.recorded }
  | .insertMigration name =>
    o.change w { w.record name with baselined := (id, w.schema) :: w.baselined }
  | .insertExecuted name => o.change w (w.record name)
  | .return => { w with returned := id :: w.returned }
  | _ => w

def reply (db : Database σ) (server : Server σ) : (c : Command) → Choice → World σ → Reply c
  | .initializeDataSource, o, _ | .connect, o, _ | .releaseLock, o, _ | .release, o, _
  | .destroy, o, _ | .insertMigration _, o, _ | .insertExecuted _, o, _ => o.answer ()
  | .getLock, o, w => o.answer (if o.grants w then some 1 else if o.refusal then some 0 else none)
  | .executedMigrations, o, w => o.answer w.recorded
  | .getTables tablePaths, o, w =>
    o.answer ((db.tables w.schema).filter fun table ↦ tablePaths.contains table.tablePath)
  | .schemaLog, o, w => o.answer (server.diff w.schema)
  | .hasHistory, o, w => o.answer w.history.isSome
  | .getTable tablePath, o, w =>
    o.answer ((db.tables w.schema).find? fun table ↦ table.tablePath = tablePath)
  | .query _, o, _ => o.answer o.rows
  | .showMigrations, o, w => o.answer (server.migrations.any fun name ↦ !w.recorded.contains name)
  | .return, _, _ => .ok ()

/-- The connection of a server that dies gives its lock back. -/
def exec (db : Database σ) (servers : ℕ → Server σ) (id : ℕ) (c : Command) (o : Choice)
    (w : World σ) : World σ × Option (Reply c) :=
  if o.killed then ((effect db id c o w).free id, none)
  else (effect db id c o w, some (reply db (servers id) c o w))

/-- The command throws what it replies as a failure. -/
def attempt {α : Type} (c : Command) (h : Reply c = Except Failure α) : Handler α :=
  invoke c fun reply ↦ h ▸ reply

/-- `try` with `finally`. -/
def finallyDo {α : Type} (p : Handler α) (last : Handler Unit) : Handler α := do
  let a ← tryCatch p fun failure ↦ do
    last
    throw failure
  last
  pure a

def INITIAL_MIGRATION : String := "InitialSchema1790985600000"

/-- On MySQL: the inner block is entered once `locked` is set. -/
def withMigrationLock {α : Type} (action : Handler α) : Handler α :=
  finallyDo
    (do
      attempt .connect rfl
      let acquired ← attempt .getLock rfl
      if acquired = some 1 then finallyDo action (attempt .releaseLock rfl)
      else throw (.error "Timed out waiting for the MySQL migration lock"))
    (attempt .release rfl)

def regular (metadata : EntityMetadata) : Bool :=
  metadata.synchronize && metadata.tableType = .regular

def checkTable (metadata : EntityMetadata) : Handler Unit := do
  if !regular metadata then pure ()
  else do
    match ← attempt (.getTable metadata.tablePath) rfl with
    | none => pure ()
    | some table =>
      match table.columns.find? fun column ↦ !metadata.columns.contains column with
      | none => pure ()
      | some column => throw (.error (undefinedColumn metadata column))

def repairSynchronizedSchema (server : Server σ) (schemaDiff : List SchemaDiffQuery) :
    Handler Unit := do
  server.entityMetadatas.forM checkTable
  let queries := repairQueries ⟨.mysql, server.entityMetadatas⟩ schemaDiff
  match queries.find? fun q ↦ isDrop q.query with
  | some q => throw (.error (destructive q.query))
  | none => queries.forM fun q ↦ do
    let _ ← attempt (.query q) rfl

def stillDiffers (pending : ℕ) : Failure :=
  .error ("Existing database schema still differs from this release after repair (" ++
    toString pending ++
    " pending schema changes). Restore or repair the schema before baselining.")

def differs (pending : ℕ) : Failure :=
  .error ("Existing database schema differs from this release (" ++ toString pending ++
    " pending schema changes). Restore or repair the schema before baselining.")

/-- The schema of the release is made, or nothing is. -/
def ensureSchema (server : Server σ) : Handler Unit := do
  let schemaDiff ← attempt .schemaLog rfl
  if schemaDiff = [] then pure ()
  else do
    let hasMigrationHistory ← attempt .hasHistory rfl
    if hasMigrationHistory then throw (differs schemaDiff.length)
    else do
      repairSynchronizedSchema server schemaDiff
      let remainingDiff ← attempt .schemaLog rfl
      if remainingDiff = [] then pure () else throw (stillDiffers remainingDiff.length)

def adopt (server : Server σ) : Handler Bool := do
  let tablePaths := (server.entityMetadatas.filter regular).map EntityMetadata.tablePath
  let existingTables ← attempt (.getTables tablePaths) rfl
  if existingTables.isEmpty then pure false
  else do
    ensureSchema server
    let _ ← attempt .showMigrations rfl
    attempt (.insertMigration INITIAL_MIGRATION) rfl
    pure true

def baselineExistingDatabase (server : Server σ) : Handler Bool := do
  if !server.migrations.contains INITIAL_MIGRATION then
    throw (.error "Initial schema migration is not registered")
  else do
    let executed ← attempt .executedMigrations rfl
    if executed.contains INITIAL_MIGRATION then pure false
    else finallyDo (adopt server) (attempt .release rfl)

def migrateDatabase (server : Server σ) : Handler Unit :=
  withMigrationLock do
    let _ ← baselineExistingDatabase server
    server.runMigrations
    let pending ← attempt .showMigrations rfl
    if pending then throw (.error "Database migrations remain pending") else pure ()

def carryOut (server : Server σ) (command : String) : Handler Unit :=
  if command = "run" then migrateDatabase server
  else if command = "baseline" then do
    let adopted ← withMigrationLock (baselineExistingDatabase server)
    if adopted then pure () else throw (.error "There is no unbaselined existing database")
  else if command = "show" then do
    let _ ← attempt .showMigrations rfl
  else throw (.error ("Unknown migration command: " ++ command))

def runMigrationCommand (server : Server σ) (command : String) : Handler Unit := do
  attempt .initializeDataSource rfl
  finallyDo (carryOut server command) (attempt .destroy rfl)

def handler (server : Server σ) (command : String) : Prog Command Reply Unit :=
  (do
    runMigrationCommand server command
    attempt .return rfl : Handler Unit).start () >>= fun _ ↦ .done ()

/-- Any number of servers of any releases, each with its command, on one database. -/
def machine (db : Database σ) (servers : ℕ → Server σ) (commands : ℕ → String) :
    Machine ℕ Command Reply Choice (World σ) where
  exec := exec db servers
  admits id _ p := p = handler (servers id) (commands id)

section Proofs

variable {db : Database σ} {servers : ℕ → Server σ} {commands : ℕ → String} {w w' : World σ}
  {id : ℕ}

/-- Every migration of the release is recorded. -/
def Complete (server : Server σ) (w : World σ) : Prop :=
  ∀ name ∈ server.migrations, name ∈ w.recorded

/-- No migration is recorded twice, a schema is taken for the initial one only where it
is that of the release, and who returns has nothing left to do. -/
structure Sound (servers : ℕ → Server σ) (commands : ℕ → String) (w : World σ) : Prop where
  nodup : w.recorded.Nodup
  baselined : ∀ b ∈ w.baselined, (servers b.1).diff b.2 = []
  returned : ∀ id ∈ w.returned, commands id = "run" → Complete (servers id) w

/-- What reads or changes the schema or the records. -/
def Accesses : Command → Prop
  | .executedMigrations | .getTables _ | .schemaLog | .hasHistory | .getTable _ | .query _
  | .showMigrations | .insertMigration _ | .insertExecuted _ => True
  | _ => False

/-- A server has the lock, or shows what the records say, which may create their table. -/
def Entitled (commands : ℕ → String) (id : ℕ) (c : Command) (w : World σ) : Prop :=
  w.lock = some id ∨ c = .showMigrations ∧ commands id = "show"

structure Guard (servers : ℕ → Server σ) (commands : ℕ → String) (id : ℕ) (c : Command)
    (w : World σ) : Prop where
  held : Accesses c → Entitled commands id c w
  fresh : ∀ name, c = .insertMigration name ∨ c = .insertExecuted name → name ∉ w.recorded
  matching : ∀ name, c = .insertMigration name → (servers id).diff w.schema = []
  complete : c = .return → commands id = "run" → Complete (servers id) w

/-- What the step of one server is to the others. -/
def Respects (id : ℕ) (w w' : World σ) : Prop :=
  (w.lock = some id → w'.lock = some id ∧ w'.recorded = w.recorded ∧ w'.schema = w.schema) ∧
    w.recorded <+: w'.recorded

/-- What a server may do. -/
structure Move (servers : ℕ → Server σ) (commands : ℕ → String) (id : ℕ) (w w' : World σ) :
    Prop where
  respects : ∀ other, other ≠ id → Respects other w w'
  grows : w.recorded <+: w'.recorded
  sound : Sound servers commands w → Sound servers commands w'

theorem Respects.refl : Respects id w w := ⟨fun h ↦ ⟨h, rfl, rfl⟩, List.prefix_rfl⟩

theorem Respects.trans {w'' : World σ} (h : Respects id w w') (h' : Respects id w' w'') :
    Respects id w w'' := by
  refine ⟨fun hlock ↦ ?_, h.2.trans h'.2⟩
  obtain ⟨hlock', hrecorded, hschema⟩ := h.1 hlock
  obtain ⟨hlock'', hrecorded', hschema'⟩ := h'.1 hlock'
  exact ⟨hlock'', hrecorded'.trans hrecorded, hschema'.trans hschema⟩

theorem Complete.mono {server : Server σ} (h : Complete server w)
    (hw : w.recorded <+: w'.recorded) : Complete server w' :=
  fun name hname ↦ hw.subset (h name hname)

theorem Move.refl : Move servers commands id w w :=
  ⟨fun _ _ ↦ .refl, List.prefix_rfl, fun h ↦ h⟩

theorem Move.trans {w'' : World σ} (h : Move servers commands id w w')
    (h' : Move servers commands id w' w'') : Move servers commands id w w'' :=
  ⟨fun other hne ↦ (h.respects other hne).trans (h'.respects other hne), h.grows.trans h'.grows,
    fun hs ↦ h'.sound (h.sound hs)⟩

theorem Move.change {o : Choice} (h : Move servers commands id w w') :
    Move servers commands id w (o.change w w') := by
  rw [Choice.change]
  split
  · exact h
  · exact .refl

/-- Only the lock changes hands, or the list of migrations is made. -/
theorem Move.quiet (hlock : ∀ other, other ≠ id → w.lock = some other → w'.lock = some other)
    (hrecorded : w'.recorded = w.recorded) (hschema : w'.schema = w.schema)
    (hbaselined : w'.baselined = w.baselined) (hreturned : w'.returned = w.returned) :
    Move servers commands id w w' where
  respects other hne :=
    ⟨fun h ↦ ⟨hlock other hne h, hrecorded, hschema⟩, hrecorded ▸ List.prefix_rfl⟩
  grows := hrecorded ▸ List.prefix_rfl
  sound hs := by
    refine ⟨hrecorded ▸ hs.nodup, hbaselined ▸ hs.baselined, fun caller hc hrun ↦ ?_⟩
    exact (hs.returned caller (hreturned ▸ hc) hrun).mono (hrecorded ▸ List.prefix_rfl)

theorem Move.free : Move servers commands id w (w.free id) := by
  refine .quiet (fun other hne hlock ↦ ?_) rfl rfl rfl rfl
  rw [World.free, hlock]
  exact if_neg fun heq ↦ hne (Option.some.inj heq)

/-- Who has the lock is no other. -/
theorem respects_of_held (hlock : w.lock = some id) (hw : w.recorded <+: w'.recorded) (other : ℕ)
    (hne : other ≠ id) : Respects other w w' := by
  refine ⟨fun h ↦ ?_, hw⟩
  rw [hlock] at h
  exact (hne (Option.some.inj h).symm).elim

theorem Sound.record {name : String} (hs : Sound servers commands w) (hname : name ∉ w.recorded) :
    Sound servers commands (w.record name) where
  nodup := by
    refine List.nodup_append.mpr ⟨hs.nodup, List.nodup_singleton name, ?_⟩
    rintro other hother _ hmem rfl
    exact hname (List.mem_singleton.mp hmem ▸ hother)
  baselined := hs.baselined
  returned caller hc hrun := (hs.returned caller hc hrun).mono (List.prefix_append ..)

/-- Who may do more than show has the lock. -/
theorem Guard.lock {c : Command} (hg : Guard servers commands id c w) (hc : Accesses c)
    (hne : c ≠ .showMigrations) : w.lock = some id :=
  (hg.held hc).resolve_right fun h ↦ hne h.1

theorem effect_move {c : Command} {o : Choice} (hg : Guard servers commands id c w) :
    Move servers commands id w (effect db id c o w) := by
  cases c with
  | initializeDataSource | connect | release | getTables | schemaLog | hasHistory | getTable =>
    exact .refl
  | getLock =>
    rw [effect]
    split
    · next hgrants =>
      refine .quiet (fun other _ hlock ↦ ?_) rfl rfl rfl rfl
      simp [Choice.grants, hlock] at hgrants
    · exact .refl
  | releaseLock | destroy => exact .change .free
  | executedMigrations =>
    rw [effect]
    split
    · exact .quiet (fun _ _ h ↦ h) rfl rfl rfl rfl
    · exact .refl
  | showMigrations => exact .change (.quiet (fun _ _ h ↦ h) rfl rfl rfl rfl)
  | query q =>
    exact .change ⟨respects_of_held (hg.lock trivial nofun) List.prefix_rfl, List.prefix_rfl,
      fun hs ↦ ⟨hs.nodup, hs.baselined, hs.returned⟩⟩
  | insertMigration name =>
    have hgrows : w.recorded <+: (w.record name).recorded := List.prefix_append ..
    refine .change ⟨respects_of_held (hg.lock trivial nofun) hgrows, hgrows, fun hs ↦ ?_⟩
    obtain ⟨hnodup, hbaselined, hreturned⟩ := hs.record (hg.fresh name (.inl rfl))
    refine ⟨hnodup, fun b hb ↦ ?_, hreturned⟩
    rcases List.mem_cons.mp hb with rfl | hb
    · exact hg.matching name rfl
    · exact hbaselined b hb
  | insertExecuted name =>
    have hgrows : w.recorded <+: (w.record name).recorded := List.prefix_append ..
    exact .change ⟨respects_of_held (hg.lock trivial nofun) hgrows, hgrows,
      fun hs ↦ hs.record (hg.fresh name (.inr rfl))⟩
  | «return» =>
    refine ⟨fun _ _ ↦ .refl, List.prefix_rfl, fun hs ↦ ⟨hs.nodup, hs.baselined, fun caller hc ↦ ?_⟩⟩
    rcases List.mem_cons.mp hc with rfl | hc
    · exact hg.complete rfl
    · exact hs.returned caller hc

theorem exec_move {c : Command} {o : Choice} (hg : Guard servers commands id c w) :
    Move servers commands id w (exec db servers id c o w).1 := by
  rw [exec]
  split
  · exact (effect_move hg).trans .free
  · exact effect_move hg

/-- The database is changed under the lock. -/
def logic (db : Database σ) (servers : ℕ → Server σ) (commands : ℕ → String) :
    Logic (machine db servers commands) where
  inv := Sound servers commands
  guard := Guard servers commands
  rely := Respects
  rely_refl _ _ := .refl
  rely_trans _ := .trans
  keeps _ _ hs hg := (exec_move hg).sound hs
  interferes _ _ hne _ hg := (exec_move hg).respects _ hne

variable {α β : Type} {Q : α → World σ → Prop}

/-- The part of a command ends in `Q`, if it does not throw. -/
abbrev Does (db : Database σ) (servers : ℕ → Server σ) (commands : ℕ → String) (id : ℕ)
    (p : Handler α) (Q : α → World σ → Prop) (w : World σ) : Prop :=
  (logic db servers commands).Ensures id p (fun a _ ↦ Q a) (fun _ _ _ ↦ True) () w

theorem Does.bind {p : Handler α} {f : α → Handler β} {Q' : β → World σ → Prop}
    (hp : Does db servers commands id p Q w)
    (hf : ∀ a w, Q a w → Does db servers commands id (f a) Q' w) :
    Does db servers commands id (p >>= f) Q' w :=
  hp.andThen fun a _ w ↦ hf a w

theorem Does.mono {p : Handler α} {Q' : α → World σ → Prop}
    (hp : Does db servers commands id p Q w) (hQ : ∀ a w, Q a w → Q' a w) :
    Does db servers commands id p Q' w :=
  Logic.Ensures.mono hp (fun a _ ↦ hQ a) fun _ _ _ _ ↦ trivial

/-- What the last part does whatever happened, and what it does to a result. -/
theorem Does.finallyDo {p : Handler α} {last : Handler Unit} {Q' : α → World σ → Prop}
    (hp : Does db servers commands id p Q w)
    (hlast : ∀ w, Does db servers commands id last (fun _ _ ↦ True) w)
    (hQ : ∀ a w, Q a w → Does db servers commands id last (fun _ ↦ Q' a) w) :
    Does db servers commands id (finallyDo p last) Q' w := by
  refine Does.bind (Q := Q) ?_ fun a w ha ↦ (hQ a w ha).bind fun _ _ h ↦ .pure h
  exact .tryCatch (Logic.Ensures.mono hp (fun _ _ _ h ↦ h) fun _ _ w _ ↦
    Does.bind (hlast w) fun _ _ _ ↦ .throw trivial)

theorem Does.attempt {c : Command} {h : Reply c = Except Failure α}
    (hc : ∀ w₁, Respects id w w₁ → Guard servers commands id c w₁ ∧
      ∀ o, ∀ a, h ▸ reply db (servers id) c o w₁ = Except.ok a → Q a (effect db id c o w₁)) :
    Does db servers commands id (attempt c h) Q w := by
  refine .invoke fun w₁ hrely _ ↦ ?_
  obtain ⟨hguard, hdone⟩ := hc w₁ hrely
  refine ⟨hguard, fun o w₂ r hexec _ ↦ ?_⟩
  have hexec : exec db servers id c o w₁ = (w₂, some r) := hexec
  rw [exec] at hexec
  split at hexec
  · cases hexec
  · obtain ⟨rfl, hr⟩ := Prod.mk.inj hexec
    obtain rfl := Option.some.inj hr
    cases hreply : (h ▸ reply db (servers id) c o w₁ : Except Failure α) with
    | ok a => exact hdone o a hreply
    | error failure => trivial

/-- The server has the lock, and knows `P` of the records and of the schema. -/
def Held (id : ℕ) (P : List String → σ → Prop) (w : World σ) : Prop :=
  w.lock = some id ∧ P w.recorded w.schema

theorem Held.respects {P : List String → σ → Prop} (h : Held id P w) (hr : Respects id w w') :
    Held id P w' := by
  obtain ⟨hlock, hrecorded, hschema⟩ := hr.1 h.1
  exact ⟨hlock, hrecorded ▸ hschema ▸ h.2⟩

/-- A command that leaves the lock, the records and the schema. -/
def Still : Command → Prop
  | .initializeDataSource | .connect | .release | .executedMigrations | .getTables _
  | .schemaLog | .hasHistory | .getTable _ | .showMigrations => True
  | _ => False

variable (db id) in
theorem effect_still {c : Command} (hc : Still c) (o : Choice) (w : World σ) :
    (effect db id c o w).lock = w.lock ∧ (effect db id c o w).recorded = w.recorded ∧
      (effect db id c o w).schema = w.schema := by
  cases c with
  | initializeDataSource | connect | release | getTables | schemaLog | hasHistory | getTable =>
    exact ⟨rfl, rfl, rfl⟩
  | executedMigrations =>
    rw [effect]
    split <;> exact ⟨rfl, rfl, rfl⟩
  | showMigrations =>
    rw [effect, Choice.change]
    split <;> exact ⟨rfl, rfl, rfl⟩
  | _ => exact hc.elim

/-- A command that records something. -/
def Records : Command → Prop
  | .insertMigration _ | .insertExecuted _ | .return => True
  | _ => False

theorem Guard.plain {c : Command} (hheld : Accesses c → Entitled commands id c w)
    (hc : ¬Records c) : Guard servers commands id c w := by
  refine ⟨hheld, fun name h _ ↦ hc ?_, fun name h ↦ (hc ?_).elim, fun h ↦ (hc ?_).elim⟩
  · rcases h with rfl | rfl <;> trivial
  · exact h ▸ trivial
  · exact h ▸ trivial

theorem Still.not_records {c : Command} (hc : Still c) : ¬Records c := by
  cases c with
  | insertMigration | insertExecuted | «return» => exact hc.elim
  | _ => exact fun h ↦ h

theorem IsStatement.not_records {c : Command} (hc : IsStatement c) : ¬Records c := by
  cases c with
  | insertMigration | insertExecuted | «return» => exact hc.elim
  | _ => exact fun h ↦ h

/-- What a reply says still holds when it arrives. -/
theorem Does.ask {c : Command} {h : Reply c = Except Failure α} {P : List String → σ → Prop}
    {F : α → List String → σ → Prop} (hw : Held id P w) (hc : Still c)
    (hF : ∀ o (w : World σ) a, h ▸ reply db (servers id) c o w = Except.ok a →
      F a w.recorded w.schema) :
    Does db servers commands id (Migrations.attempt c h)
      (fun a ↦ Held id fun recorded schema ↦ P recorded schema ∧ F a recorded schema) w := by
  refine .attempt fun w₁ hrely ↦ ?_
  have hw₁ := hw.respects hrely
  refine ⟨.plain (fun _ ↦ .inl hw₁.1) hc.not_records, fun o a ha ↦ ?_⟩
  obtain ⟨hlock, hrecorded, hschema⟩ := effect_still db id hc o w₁
  refine ⟨hlock.trans hw₁.1, ?_⟩
  rw [hrecorded, hschema]
  exact ⟨hw₁.2, hF o w₁ a ha⟩

/-- Nothing is unrecorded. -/
theorem Does.grows {p : Handler α} {P : World σ → Prop}
    (hP : ∀ w w', w.recorded <+: w'.recorded → P w → P w')
    (hp : Does db servers commands id p Q w) (hw : P w) :
    Does db servers commands id p (fun _ ↦ P) w := by
  have hframe := Logic.Ensures.frame (fun w w' (hr : Respects id w w') ↦ hP w w' hr.2)
    (fun c o w hg ↦ hP w _ (exec_move hg).grows) hp hw
  exact Logic.Ensures.mono hframe (fun _ _ _ h ↦ h.1) fun _ _ _ _ ↦ trivial

theorem answer_eq_ok {o : Choice} {a a' : α} (h : o.answer a = .ok a') : a = a' := by
  rw [Choice.answer] at h
  split at h
  · cases h
  · exact Except.ok.inj h

/-- A command that any server may send at any time. -/
theorem Does.free {c : Command} {h : Reply c = Except Failure α} (hc : ¬Accesses c)
    (hrecords : ¬Records c) :
    Does db servers commands id (Migrations.attempt c h) (fun _ _ ↦ True) w :=
  .attempt fun _ _ ↦ ⟨.plain (fun h ↦ (hc h).elim) hrecords, fun _ _ _ ↦ trivial⟩

theorem getLock_spec : Does db servers commands id (Migrations.attempt .getLock rfl)
    (fun acquired w ↦ acquired = some 1 → w.lock = some id) w := by
  refine .attempt fun w₁ _ ↦ ⟨.plain (fun h ↦ h.elim) fun h ↦ h, fun o acquired ha hone ↦ ?_⟩
  obtain rfl := answer_eq_ok ha
  rw [effect]
  split
  · rfl
  · next hgrants =>
    rw [if_neg hgrants] at hone
    split at hone <;> cases hone

theorem withMigrationLock_spec {action : Handler α}
    (hQ : ∀ a w w', w.recorded <+: w'.recorded → Q a w → Q a w')
    (haction : ∀ w, w.lock = some id → Does db servers commands id action Q w) :
    Does db servers commands id (withMigrationLock action) Q w := by
  refine .finallyDo (Q := Q) ?_ (fun _ ↦ .free (fun h ↦ h) fun h ↦ h)
    fun a w ha ↦ .grows (hQ a) (.free (fun h ↦ h) fun h ↦ h) ha
  refine Does.bind (Q := fun _ _ ↦ True) (.free (fun h ↦ h) fun h ↦ h) fun _ w _ ↦ ?_
  refine getLock_spec.bind fun acquired w hacquired ↦ ?_
  split
  · next hone =>
    exact (haction w (hacquired hone)).finallyDo (fun _ ↦ .free (fun h ↦ h) fun h ↦ h)
      fun a w ha ↦ .grows (hQ a) (.free (fun h ↦ h) fun h ↦ h) ha
  · exact .throw trivial

/-- What a migration, or a repair, sends. -/
theorem statements_spec {p : Handler α} {T : α → Prop} {P : List String → Prop}
    (hw : Held id (fun recorded _ ↦ P recorded) w) (hp : Issues IsStatement p T) :
    Does db servers commands id p (fun _ ↦ Held id fun recorded _ ↦ P recorded) w := by
  have h := Logic.Ensures.of_issues (L := logic db servers commands) (i := id)
    (P := Held id fun recorded (_ : σ) ↦ P recorded) (fun w w' hr hw ↦ hw.respects hr)
    (fun c w hc hw ↦ ?_) (fun c o w w' r hc hw hexec ↦ ?_) hp hw
  · exact h.mono (fun _ _ _ h ↦ h.2) fun _ _ _ _ ↦ trivial
  · exact .plain (fun _ ↦ .inl hw.1) hc.not_records
  · have hexec : exec db servers id c o w = (w', some r) := hexec
    rw [exec] at hexec
    split at hexec
    · cases hexec
    · obtain ⟨rfl, -⟩ := Prod.mk.inj hexec
      cases c with
      | getTable => exact hw
      | query q =>
        rw [effect, Choice.change]
        split <;> exact hw
      | _ => exact hc.elim

theorem forM_issues {τ : Type} {G : Command → Prop} {f : τ → Handler Unit} (l : List τ)
    (hf : ∀ a ∈ l, Issues G (f a) fun _ ↦ True) : Issues G (l.forM f) fun _ ↦ True := by
  induction l with
  | nil => exact .pure trivial
  | cons a l ih =>
    exact (hf a List.mem_cons_self).bind fun _ _ ↦ ih fun b hb ↦ hf b (List.mem_cons_of_mem a hb)

theorem checkTable_issues {metadata : EntityMetadata} :
    Issues IsStatement (checkTable metadata) fun _ ↦ True := by
  rw [checkTable]
  split
  · exact .pure trivial
  · refine Issues.bind (P := fun _ ↦ True) (.invoke trivial fun _ _ _ ↦ trivial) fun table _ ↦ ?_
    cases table with
    | none => exact .pure trivial
    | some table =>
      dsimp only
      split
      · exact .pure trivial
      · exact .throw

theorem repairSynchronizedSchema_issues {server : Server σ} {schemaDiff : List SchemaDiffQuery} :
    Issues IsStatement (repairSynchronizedSchema server schemaDiff) fun _ ↦ True := by
  refine (forM_issues _ fun metadata _ ↦ checkTable_issues).bind fun _ _ ↦ ?_
  dsimp only
  split
  · exact .throw
  · refine forM_issues _ fun q _ ↦ ?_
    exact Issues.bind (P := fun _ ↦ True) (.invoke trivial fun _ _ _ ↦ trivial)
      fun _ _ ↦ .pure trivial

/-- Where the schema has been made, it is that of the release. -/
theorem ensureSchema_spec {P : List String → Prop}
    (hw : Held id (fun recorded _ ↦ P recorded) w) :
    Does db servers commands id (ensureSchema (servers id))
      (fun _ ↦ Held id fun recorded schema ↦ P recorded ∧ (servers id).diff schema = []) w := by
  have hlog : ∀ w, Held id (fun recorded _ ↦ P recorded) w →
      Does db servers commands id (Migrations.attempt .schemaLog rfl) (fun schemaDiff ↦
        Held id fun recorded schema ↦ P recorded ∧ (servers id).diff schema = schemaDiff) w :=
    fun w hw ↦ .ask hw trivial fun o w a ha ↦ answer_eq_ok ha
  refine (hlog w hw).bind fun schemaDiff w hw ↦ ?_
  split
  · next hnil => exact .pure (hnil ▸ hw)
  · have hhistory : Does db servers commands id (Migrations.attempt .hasHistory rfl) _ w :=
      .ask (F := fun _ _ _ ↦ True) hw trivial fun _ _ _ _ ↦ trivial
    refine hhistory.bind fun hasMigrationHistory w hw ↦ ?_
    split
    · exact .throw trivial
    · refine (statements_spec ⟨hw.1, hw.2.1.1⟩ repairSynchronizedSchema_issues).bind
        fun _ w hw ↦ ?_
      refine (hlog w hw).bind fun remainingDiff w hw ↦ ?_
      split
      · next hnil => exact .pure (hnil ▸ hw)
      · exact .throw trivial

theorem adopt_spec (hw : Held id (fun recorded _ ↦ INITIAL_MIGRATION ∉ recorded) w) :
    Does db servers commands id (adopt (servers id)) (fun _ w ↦ w.lock = some id) w := by
  have htables : ∀ tablePaths,
      Does db servers commands id (Migrations.attempt (.getTables tablePaths) rfl) _ w :=
    fun _ ↦ .ask (F := fun _ _ _ ↦ True) hw trivial fun _ _ _ _ ↦ trivial
  refine (htables _).bind fun existingTables w hw ↦ ?_
  split
  · exact .pure hw.1
  · have hensure : Does db servers commands id (ensureSchema (servers id)) _ w :=
      ensureSchema_spec (P := fun recorded ↦ INITIAL_MIGRATION ∉ recorded) ⟨hw.1, hw.2.1⟩
    refine hensure.bind fun _ w hw ↦ ?_
    have hshow : Does db servers commands id (Migrations.attempt .showMigrations rfl) _ w :=
      .ask (F := fun _ _ _ ↦ True) hw trivial fun _ _ _ _ ↦ trivial
    refine hshow.bind fun _ w hw ↦ ?_
    refine Does.bind (Q := fun _ w ↦ w.lock = some id) ?_ fun _ w hlock ↦ .pure hlock
    refine .attempt fun w₁ hrely ↦ ?_
    obtain ⟨hlock, ⟨hfresh, hdiff⟩, -⟩ := hw.respects hrely
    refine ⟨⟨fun _ ↦ .inl hlock, ?_, fun _ _ ↦ hdiff, nofun⟩, fun o _ _ ↦ ?_⟩
    · rintro name (hname | hname) <;> cases hname
      exact hfresh
    · rw [effect, Choice.change]
      split <;> exact hlock

theorem release_spec (hlock : w.lock = some id) :
    Does db servers commands id (Migrations.attempt .release rfl) (fun _ w ↦ w.lock = some id) w :=
  .mono (.ask (P := fun _ _ ↦ True) (F := fun _ _ _ ↦ True) ⟨hlock, trivial⟩ trivial
    fun _ _ _ _ ↦ trivial) fun _ _ h ↦ h.1

theorem executedMigrations_spec (hlock : w.lock = some id) :
    Does db servers commands id (Migrations.attempt .executedMigrations rfl)
      (fun executed ↦ Held id fun recorded _ ↦ recorded = executed) w := by
  have hlist : Does db servers commands id (Migrations.attempt .executedMigrations rfl)
      (fun executed ↦ Held id fun recorded _ ↦ True ∧ recorded = executed) w :=
    .ask ⟨hlock, trivial⟩ trivial fun o w a ha ↦ answer_eq_ok ha
  exact hlist.mono fun _ _ h ↦ ⟨h.1, h.2.2⟩

theorem baselineExistingDatabase_spec (hlock : w.lock = some id) :
    Does db servers commands id (baselineExistingDatabase (servers id))
      (fun _ w ↦ w.lock = some id) w := by
  rw [baselineExistingDatabase]
  split
  · exact .throw trivial
  · refine (executedMigrations_spec hlock).bind fun executed w hw ↦ ?_
    split
    · exact .pure hw.1
    · next hfresh =>
      rw [List.contains_iff_mem] at hfresh
      exact (adopt_spec ⟨hw.1, hw.2 ▸ hfresh⟩).finallyDo (fun _ ↦ .free (fun h ↦ h) fun h ↦ h)
        fun _ _ ↦ release_spec

/-- The executor knows whatever is recorded, once it has read it. -/
def Known (id : ℕ) (known : Option (List String)) : World σ → Prop :=
  Held id fun recorded _ ↦ ∀ names, known = some names → recorded ⊆ names

theorem known_exec {known : Option (List String)} {c : Command} {o : Choice} {r : Reply c}
    (hc : migrationExecutor.allows known c) (hw : Known id known w)
    (hexec : exec db servers id c o w = (w', some r)) :
    Known id (migrationExecutor.after known c r) w' := by
  rw [exec] at hexec
  split at hexec
  · cases hexec
  · obtain ⟨rfl, hr⟩ := Prod.mk.inj hexec
    obtain rfl := Option.some.inj hr
    obtain ⟨hlock, hknown⟩ := hw
    cases c with
    | executedMigrations =>
      obtain ⟨hlock', hrecorded, -⟩ := effect_still db id (c := .executedMigrations) trivial o w
      refine ⟨hlock'.trans hlock, fun names hnames ↦ ?_⟩
      rw [hrecorded]
      cases hreply : o.answer w.recorded with
      | error failure =>
        rw [reply, hreply] at hnames
        exact hknown names hnames
      | ok executed =>
        rw [reply, hreply] at hnames
        cases hnames
        exact answer_eq_ok hreply ▸ List.Subset.refl _
    | getTable => exact ⟨hlock, hknown⟩
    | query q =>
      rw [effect, Choice.change]
      split <;> exact ⟨hlock, hknown⟩
    | insertExecuted name =>
      obtain ⟨names, rfl, -⟩ := hc
      rw [effect, Choice.change]
      refine ⟨by split <;> exact hlock, fun names' hnames ↦ ?_⟩
      obtain rfl : names ++ [name] = names' := Option.some.inj hnames
      have hsubset := hknown names rfl
      split
      · exact List.append_subset.mpr ⟨List.subset_append_of_subset_left _ hsubset,
          List.subset_append_right ..⟩
      · exact List.subset_append_of_subset_left _ hsubset
    | _ => exact hc.elim

theorem runMigrations_spec (hlock : w.lock = some id) :
    Does db servers commands id (servers id).runMigrations (fun _ w ↦ w.lock = some id) w := by
  have hknown : Known id none w := ⟨hlock, nofun⟩
  have h := Logic.Ensures.of_follows (L := logic db servers commands) (i := id) (P := Known id)
    (fun _ _ _ hr hw ↦ hw.respects hr) (fun known c w hc hw ↦ ?_)
    (fun _ _ _ _ _ _ hc hw hexec ↦ known_exec hc hw hexec) (servers id).executes hknown
  · exact h.mono (fun _ _ _ ⟨_, _, hw⟩ ↦ hw.1) fun _ _ _ _ ↦ trivial
  · cases c with
    | executedMigrations | query | getTable => exact .plain (fun _ ↦ .inl hw.1) fun h ↦ h
    | insertExecuted name =>
      obtain ⟨names, rfl, hname⟩ := hc
      refine ⟨fun _ ↦ .inl hw.1, ?_, nofun, nofun⟩
      rintro other (hother | hother) <;> cases hother
      exact fun hmem ↦ hname (hw.2 names rfl hmem)
    | _ => exact hc.elim

theorem migrateDatabase_spec :
    Does db servers commands id (migrateDatabase (servers id)) (fun _ ↦ Complete (servers id))
      w := by
  refine withMigrationLock_spec (fun _ _ _ hgrows hcomplete ↦ hcomplete.mono hgrows)
    fun w hlock ↦ ?_
  refine (baselineExistingDatabase_spec hlock).bind fun _ w hlock ↦ ?_
  refine (runMigrations_spec hlock).bind fun _ w hlock ↦ ?_
  have hshow : Does db servers commands id (Migrations.attempt .showMigrations rfl)
      (fun pending ↦ Held id fun recorded _ ↦ True ∧
        (pending = false → ∀ name ∈ (servers id).migrations, name ∈ recorded)) w := by
    refine .ask ⟨hlock, trivial⟩ trivial fun o w pending hpending hfalse name hname ↦ ?_
    obtain rfl := answer_eq_ok hpending
    simpa using List.any_eq_false.mp hfalse name hname
  refine hshow.bind fun pending w hw ↦ ?_
  split
  · exact .throw trivial
  · next hfalse => exact .pure (hw.2.2 (Bool.eq_false_of_not_eq_true hfalse))

theorem carryOut_spec : Does db servers commands id (carryOut (servers id) (commands id))
    (fun _ w ↦ commands id = "run" → Complete (servers id) w) w := by
  rw [carryOut]
  split
  · exact migrateDatabase_spec.mono fun _ _ h _ ↦ h
  · next hrun =>
    refine Does.mono (Q := fun _ _ ↦ True) ?_ fun _ _ _ h ↦ (hrun h).elim
    split
    · refine Does.bind (Q := fun _ _ ↦ True) ?_ fun adopted w _ ↦ ?_
      · exact withMigrationLock_spec (fun _ _ _ _ h ↦ h) fun w hlock ↦
          (baselineExistingDatabase_spec hlock).mono fun _ _ _ ↦ trivial
      · split
        · exact .pure trivial
        · exact .throw trivial
    · split
      · next hshow =>
        refine Does.bind (Q := fun _ _ ↦ True) (.attempt fun _ _ ↦ ?_) fun _ _ _ ↦ .pure trivial
        exact ⟨.plain (fun _ ↦ .inr ⟨rfl, hshow⟩) fun h ↦ h, fun _ _ _ ↦ trivial⟩
      · exact .throw trivial

theorem runMigrationCommand_spec :
    Does db servers commands id (runMigrationCommand (servers id) (commands id))
      (fun _ w ↦ commands id = "run" → Complete (servers id) w) w := by
  refine Does.bind (Q := fun _ _ ↦ True) (.free (fun h ↦ h) fun h ↦ h) fun _ w _ ↦ ?_
  refine carryOut_spec.finallyDo (fun _ ↦ .free (fun h ↦ h) fun h ↦ h) fun _ w hw ↦ ?_
  exact .grows (fun _ _ hgrows h hrun ↦ (h hrun).mono hgrows) (.free (fun h ↦ h) fun h ↦ h) hw

theorem admissible : (logic db servers commands).Admissible := by
  rintro id w p - rfl
  have hcommand : Does db servers commands id (do
      runMigrationCommand (servers id) (commands id)
      Migrations.attempt .return rfl) (fun _ _ ↦ True) w := by
    refine runMigrationCommand_spec.bind fun _ w hcomplete ↦ ?_
    refine .attempt fun w₁ hrely ↦ ⟨⟨nofun, ?_, nofun, fun _ hrun ↦ ?_⟩, fun _ _ _ ↦ trivial⟩
    · rintro name (hname | hname) <;> cases hname
    · exact (hcomplete hrun).mono hrely.2
  exact Logic.Wp.bind (Logic.Wp.mono hcommand fun _ _ _ ↦ trivial)

end Proofs

section Runs

variable {db : Database σ} {servers : ℕ → Server σ} {commands : ℕ → String} {w : World σ}
  {cfg cfg' : Config ℕ Command Reply (World σ)}

/-- What is pending, in its order. -/
def runPending (migrations : List String) (up : String → Handler Unit) : Handler Unit := do
  let executed ← attempt .executedMigrations rfl
  (migrations.filter fun name ↦ !executed.contains name).forM fun name ↦ do
    up name
    attempt (.insertExecuted name) rfl

theorem runEach_follows {up : String → Handler Unit}
    (hup : ∀ name, Issues IsStatement (up name) fun _ ↦ True) {names known : List String}
    (hnodup : names.Nodup) (hfresh : ∀ name ∈ names, name ∉ known) :
    Follows migrationExecutor (some known) (names.forM fun name ↦ do
      up name
      attempt (.insertExecuted name) rfl) fun _ _ ↦ True := by
  induction names generalizing known with
  | nil => exact .pure trivial
  | cons name names ih =>
    obtain ⟨hname, hnodup⟩ := List.nodup_cons.mp hnodup
    have hquiet c (hc : IsStatement c) : migrationExecutor.allows (some known) c ∧
        ∀ r, migrationExecutor.after (some known) c r = some known := by
      cases c with
      | query | getTable => exact ⟨trivial, fun _ ↦ rfl⟩
      | _ => exact hc.elim
    have hinsert : Follows migrationExecutor (some known)
        (attempt (.insertExecuted name) rfl : Handler Unit)
        fun known' _ ↦ known' = some (known ++ [name]) :=
      .invoke ⟨known, rfl, hfresh name List.mem_cons_self⟩ fun _ _ _ ↦ rfl
    refine Follows.bind (P := fun known' _ ↦ known' = some (known ++ [name])) ?_ ?_
    · refine (Follows.of_issues hquiet (hup name)).bind ?_
      rintro _ _ ⟨rfl, -⟩
      exact hinsert
    · rintro _ _ rfl
      refine ih hnodup fun other hother hmem ↦ ?_
      rcases List.mem_append.mp hmem with hmem | hmem
      · exact hfresh other (List.mem_cons_of_mem name hother) hmem
      · exact hname (List.mem_singleton.mp hmem ▸ hother)

theorem runPending_follows {migrations : List String} {up : String → Handler Unit}
    (hnodup : migrations.Nodup) (hup : ∀ name, Issues IsStatement (up name) fun _ ↦ True) :
    Follows migrationExecutor none (runPending migrations up) fun _ _ ↦ True := by
  refine Follows.bind (P := fun known executed ↦ known = some executed) ?_ ?_
  · refine .invoke trivial fun r executed hr ↦ ?_
    obtain rfl : r = .ok executed := hr
    rfl
  · rintro _ executed rfl
    exact runEach_follows hup (hnodup.filter _) fun name hname ↦ by
      simpa using (List.mem_filter.mp hname).2

def createUsers : SchemaDiffQuery := ⟨"CREATE TABLE users (guid varchar(36))", []⟩

def createTables (_ : String) : Handler Unit := do
  let _ ← attempt (.query createUsers) rfl

/-- A release of one table, of which a database has all or nothing. -/
def sampleServer : Server Bool where
  migrations := [INITIAL_MIGRATION]
  runMigrations := runPending [INITIAL_MIGRATION] createTables
  executes := runPending_follows (List.nodup_singleton INITIAL_MIGRATION) fun _ ↦
    Issues.bind (P := fun _ ↦ True) (.invoke trivial fun _ _ _ ↦ trivial) fun _ _ ↦ .pure trivial
  entityMetadatas := [⟨"users", "users", true, .regular, ["guid"], []⟩]
  diff made := if made then [] else [createUsers]

def sampleDatabase : Database Bool where
  tables made := if made then [⟨"users", ["guid"]⟩] else []
  run _ _ := true

def sampleCommands (id : ℕ) : String := if id = 3 then "show" else "run"

def sampleMachine : Machine ℕ Command Reply Choice (World Bool) :=
  machine sampleDatabase (fun _ ↦ sampleServer) sampleCommands

/-- A database that was synchronized before there were migrations. -/
def synchronized : World Bool := ⟨true, none, none, [], []⟩

/-- The second server asks for the lock while the first one has it, and the last one shows
what is pending; the third one comes when it is free. -/
def sampleTurns : List (ℕ × List Choice) :=
  [(0, 5), (1, 5), (3, 5), (0, 10), (2, 10)].map fun (id, n) ↦
    (id, List.replicate n ⟨none, false, false, true, false, false, ""⟩)

def sampleRun : Config ℕ Command Reply (World Bool) :=
  sampleMachine.schedule (fun id ↦ handler sampleServer (sampleCommands id)) (fun _ _ ↦ true)
    sampleTurns (Machine.idle synchronized)

theorem sample_run : sampleMachine.Run (Machine.idle synchronized) sampleRun :=
  Machine.schedule_run (fun _ _ _ ↦ rfl) sampleTurns

example : sampleRun.world = ⟨true, some [INITIAL_MIGRATION], none, [(0, true)], [2, 0, 3]⟩ := rfl

/-- Of any servers of any releases that are started at once on one database, and of which
each can fail or die at any call, only the one with the lock comes to read or to change the
schema or the records, but that who shows what is pending has none. No migration is recorded
twice and none is forgotten, what is taken for the initial schema is that of the release, and
after a run that has returned the migrations of its release are recorded. -/
theorem locked_migrations (hnodup : w.recorded.Nodup) (hb : w.baselined = [])
    (hreturned : w.returned = []) (hr : (machine db servers commands).Run (Machine.idle w) cfg)
    (hr' : (machine db servers commands).Run cfg cfg') :
    (∀ id c k, cfg'.threads id = some (.call c k) → Accesses c →
        cfg'.world.lock = some id ∨ c = .showMigrations ∧ commands id = "show") ∧
      cfg'.world.recorded.Nodup ∧ cfg.world.recorded <+: cfg'.world.recorded ∧
      (∀ b ∈ cfg'.world.baselined, (servers b.1).diff b.2 = []) ∧
      ∀ id ∈ cfg.world.returned, commands id = "run" → Complete (servers id) cfg'.world := by
  have hidle : (logic db servers commands).Verified (Machine.idle w) := by
    refine Logic.verified_idle ⟨hnodup, fun b hmem ↦ ?_, fun id hid ↦ ?_⟩
    · rw [hb] at hmem
      cases hmem
    · rw [hreturned] at hid
      cases hid
  have hverified := hidle.run admissible hr
  have hverified' := hverified.run admissible hr'
  have hgrows : cfg.world.recorded <+: cfg'.world.recorded :=
    hverified.run_within admissible (T := fun w w' ↦ w.recorded <+: w'.recorded)
      (fun _ ↦ List.prefix_rfl) .trans (fun _ _ _ _ _ hg ↦ (exec_move hg).grows) hr'
  refine ⟨fun id c k hthread ↦ (hverified'.guard hthread).held, hverified'.1.nodup, hgrows,
    hverified'.1.baselined, fun id hid hrun ↦ ?_⟩
  exact (hverified.1.returned id hid hrun).mono hgrows

theorem sample_migrations :
    (∀ id c k, sampleRun.threads id = some (.call c k) → Accesses c →
        sampleRun.world.lock = some id ∨ c = .showMigrations ∧ sampleCommands id = "show") ∧
      sampleRun.world.recorded.Nodup ∧ sampleRun.world.recorded <+: sampleRun.world.recorded ∧
      (∀ b ∈ sampleRun.world.baselined, sampleServer.diff b.2 = []) ∧
      ∀ id ∈ sampleRun.world.returned, sampleCommands id = "run" →
        Complete sampleServer sampleRun.world :=
  locked_migrations (w := synchronized) List.nodup_nil rfl rfl sample_run .refl

end Runs

end RustdeskConsole.Migrations
