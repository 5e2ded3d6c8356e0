import Mathlib.Tactic.ByContra
import RustdeskConsole.Database.Statements

namespace RustdeskConsole.Database

open Collections

structure SchemaDiffQuery where
  query : String
  parameters : List String
  deriving DecidableEq

inductive TableType
  | regular
  | view
  | junction
  | other
  deriving DecidableEq

structure EntityMetadata where
  tablePath : String
  tableName : String
  synchronize : Bool
  tableType : TableType
  columns : List String
  uniques : List (Option String)

inductive SourceType
  | mysql
  | sqlite
  deriving DecidableEq

structure DataSource where
  type : SourceType
  entityMetadatas : List EntityMetadata

/-- What the database is asked to do. -/
inductive Command
  | query (sql : String) (parameters : List String)
  | startTransaction
  | commitTransaction
  | rollbackTransaction
  deriving DecidableEq

section Text

def entityUniqueConstraintNames (dataSource : DataSource) : List String :=
  dataSource.entityMetadatas.flatMap fun metadata ↦
    (metadata.uniques.filterMap id).filter (· ≠ "")

def dropText (text : List Char) (cs : List Char) : Option (List Char) :=
  if text.isPrefixOf cs then some (cs.drop text.length) else none

def isHexDigit (c : Char) : Bool := c.isDigit || ('a' ≤ c && c ≤ 'f')

/-- `/, CONSTRAINT "(UQ_[0-9a-f]+)" UNIQUE \([^)]+\)/` at the start of a text: the name,
the match and what follows it. -/
def strayUniqueConstraint (cs : List Char) : Option (String × List Char × List Char) := do
  let cs₁ ← dropText ", CONSTRAINT \"UQ_".toList cs
  let digits := cs₁.takeWhile isHexDigit
  if digits = [] then none
  let cs₂ ← dropText "\" UNIQUE (".toList (cs₁.dropWhile isHexDigit)
  if cs₂.takeWhile (· ≠ ')') = [] then none
  let rest ← dropText [')'] (cs₂.dropWhile (· ≠ ')'))
  return (String.ofList ("UQ_".toList ++ digits), cs.take (cs.length - rest.length), rest)

/-- Every match in turn; there are no more of them than characters. -/
def replaceStray (keep : String → Bool) : ℕ → List Char → List Char
  | 0, cs => cs
  | _, [] => []
  | n + 1, c :: cs =>
    match strayUniqueConstraint (c :: cs) with
    | none => c :: replaceStray keep n cs
    | some (name, matched, rest) =>
      (if keep name then matched else []) ++ replaceStray keep n rest

def stripStrayUniqueConstraints (entityUniques : List String) (sql : String) : String :=
  if !sql.startsWith "CREATE TABLE \"temporary_" then sql
  else String.ofList (replaceStray entityUniques.contains sql.length sql.toList)

/-- `/^\s*DROP\s/i` -/
def isDrop (sql : String) : Bool :=
  match sql.toList.dropWhile isSpace with
  | d :: r :: o :: p :: c :: _ => [d, r, o, p].map Char.toUpper = ['D', 'R', 'O', 'P'] && isSpace c
  | _ => false

end Text

/-- A session keeps the commands that it has sent. -/
abbrev Session := EStateM String (List Command)

/- The message with which the database fails a command after those before it, if it does,
and the columns of its tables. -/
variable (failure : List Command → Command → Option String)
  (getTable : String → Except String (Option (List String)))

def send (command : Command) : Session Unit := do
  let sent ← get
  set (sent ++ [command])
  match failure sent command with
  | none => pure ()
  | some message => throw message

def query (q : SchemaDiffQuery) : Session Unit := send failure (.query q.query q.parameters)

def undefinedColumn (metadata : EntityMetadata) (column : String) : String :=
  "Table \"" ++ metadata.tableName ++ "\" has column \"" ++ column ++
    "\" that is not defined in the current entities. Repairing the schema would drop this " ++
    "column and its data. Remove the column manually or add a data-preserving migration " ++
    "before baselining."

def destructive (sql : String) : String :=
  "Repairing this MySQL database requires destructive statements (for example: " ++ sql ++
    "). Restore or repair the schema manually, or add a data-preserving migration, before " ++
    "baselining."

/-- The first table that cannot be read or that has a column of its own. -/
def checkColumns (metadata : EntityMetadata) : Except String Unit := do
  if !metadata.synchronize || metadata.tableType ≠ .regular then
    return
  match ← getTable metadata.tablePath with
  | none => return
  | some columns =>
    match columns.find? fun column ↦ !metadata.columns.contains column with
    | none => return
    | some column => throw (undefinedColumn metadata column)

def checkTables (dataSource : DataSource) : Except String Unit :=
  dataSource.entityMetadatas.forM (checkColumns getTable)

def repairQueries (dataSource : DataSource) (schemaDiff : List SchemaDiffQuery) :
    List SchemaDiffQuery :=
  schemaDiff.map fun q ↦
    { q with query := stripStrayUniqueConstraints (entityUniqueConstraintNames dataSource) q.query }

def repairMysql (queries : List SchemaDiffQuery) : Session Unit :=
  match queries.find? fun q ↦ isDrop q.query with
  | some q => throw (destructive q.query)
  | none => queries.forM (query failure)

def transaction (queries : List SchemaDiffQuery) : Session Unit := do
  send failure .startTransaction
  try
    queries.forM (query failure)
    send failure .commitTransaction
  catch error =>
    send failure .rollbackTransaction
    throw error

def repairSqlite (queries : List SchemaDiffQuery) : Session Unit := do
  send failure (.query "PRAGMA foreign_keys = OFF" [])
  try
    transaction failure queries
  finally
    send failure (.query "PRAGMA foreign_keys = ON" [])

def repairSynchronizedSchema (dataSource : DataSource) (schemaDiff : List SchemaDiffQuery) :
    Session Unit := do
  MonadExcept.ofExcept (checkTables getTable dataSource)
  let queries := repairQueries dataSource schemaDiff
  match dataSource.type with
  | .mysql => repairMysql failure queries
  | .sqlite => repairSqlite failure queries

/-- What has been sent when a session ends that has sent something before. -/
def sentAfter (session : Session Unit) (sent : List Command) : List Command :=
  match session.run sent with
  | .ok _ sent' => sent'
  | .error _ sent' => sent'

def Command.IsAdditive : Command → Prop
  | .query sql _ => Additive sql
  | .startTransaction | .commitTransaction | .rollbackTransaction => True

section Sent

variable {failure getTable} {queries : List SchemaDiffQuery} {sent : List Command}
  {dataSource : DataSource} {schemaDiff : List SchemaDiffQuery}

def SchemaDiffQuery.command (q : SchemaDiffQuery) : Command := .query q.query q.parameters

theorem bind_run {α : Type} {x : Session α} {f : α → Session Unit} :
    (x >>= f).run sent = match x.run sent with
      | .ok a sent' => (f a).run sent'
      | .error e sent' => .error e sent' := by
  have hb : (x >>= f).run sent = EStateM.bind x f sent := rfl
  rw [hb, EStateM.bind, EStateM.run]
  cases x sent with
  | ok a sent' => rfl
  | error e sent' => rfl

theorem forM_cons {q : SchemaDiffQuery} : (q :: queries).forM (query failure) =
    send failure q.command >>= fun _ ↦ queries.forM (query failure) := rfl

theorem send_run {command : Command} : (send failure command).run sent =
    match failure sent command with
    | none => .ok () (sent ++ [command])
    | some message => .error message (sent ++ [command]) := by
  have hsend : (send failure command).run sent = (match failure sent command with
      | none => pure ()
      | some message => throw message : Session Unit).run (sent ++ [command]) := rfl
  rw [hsend]
  cases failure sent command with
  | none => rfl
  | some message => rfl

/-- A list of queries sends some of them, from the first on. -/
theorem forM_sent : ∃ done, done <+: queries ∧
    sentAfter (queries.forM (query failure)) sent = sent ++ done.map (·.command) := by
  induction queries generalizing sent with
  | nil => exact ⟨[], List.nil_prefix, (List.append_nil sent).symm⟩
  | cons q queries ih =>
    cases hf : failure sent q.command with
    | some message =>
      refine ⟨[q], List.prefix_append [q] queries, ?_⟩
      rw [sentAfter, forM_cons, bind_run, send_run, hf]
      rfl
    | none =>
      obtain ⟨done, hp, hd⟩ := @ih (sent ++ [q.command])
      refine ⟨q :: done, List.cons_prefix_cons.mpr ⟨rfl, hp⟩, ?_⟩
      rw [sentAfter, forM_cons, bind_run, send_run, hf]
      refine hd.trans ?_
      simp

theorem forM_sent_all :
    sentAfter (queries.forM (query fun _ _ ↦ none)) sent = sent ++ queries.map (·.command) := by
  induction queries generalizing sent with
  | nil => exact (List.append_nil sent).symm
  | cons q queries ih =>
    have hrest := @ih (sent ++ [q.command])
    refine hrest.trans ?_
    simp

/-- On MySQL nothing is sent before the tables and the statements have been looked
at, and then nothing but the statements. -/
theorem repair_sent (hs : dataSource.type = .mysql) :
    sentAfter (repairSynchronizedSchema failure getTable dataSource schemaDiff) [] =
      if (checkTables getTable dataSource).isOk ∧
          ∀ q ∈ repairQueries dataSource schemaDiff, isDrop q.query = false then
        sentAfter ((repairQueries dataSource schemaDiff).forM (query failure)) []
      else [] := by
  rw [sentAfter, repairSynchronizedSchema, bind_run, hs]
  cases hc : checkTables getTable dataSource with
  | error message =>
    rw [if_neg (fun h ↦ by cases h.1)]
    rfl
  | ok u =>
    cases hd : (repairQueries dataSource schemaDiff).find? (fun q ↦ isDrop q.query) with
    | some q =>
      have hdrop : isDrop q.query = true :=
        @List.find?_some _ (fun q : SchemaDiffQuery ↦ isDrop q.query) _ _ hd
      rw [if_neg fun h ↦ by simp [h.2 q (List.mem_of_find?_eq_some hd)] at hdrop]
      simp only [repairMysql, hd]
      rfl
    | none =>
      rw [if_pos ⟨rfl, fun q hq ↦ by simpa using List.find?_eq_none.mp hd q hq⟩]
      simp only [repairMysql, hd]
      rfl

end Sent

/-- However the database fails it, a repair sends nothing but additive statements if
and only if it is refused, or all of its statements are additive. -/
theorem repair_additive_iff {dataSource : DataSource} {schemaDiff : List SchemaDiffQuery}
    (hs : dataSource.type = .mysql) :
    (∀ failure, ∀ command ∈
      sentAfter (repairSynchronizedSchema failure getTable dataSource schemaDiff) [],
      command.IsAdditive) ↔
      (checkTables getTable dataSource).isOk = false ∨
        (∃ q ∈ repairQueries dataSource schemaDiff, isDrop q.query = true) ∨
          ∀ q ∈ repairQueries dataSource schemaDiff, Additive q.query := by
  constructor
  · intro hall
    by_cases hc : (checkTables getTable dataSource).isOk ∧
        ∀ q ∈ repairQueries dataSource schemaDiff, isDrop q.query = false
    · refine .inr (.inr fun q hq ↦ ?_)
      have hsent := hall (fun _ _ ↦ none) q.command
      rw [repair_sent hs, if_pos hc, forM_sent_all, List.nil_append] at hsent
      exact hsent (List.mem_map_of_mem hq)
    · by_cases hok : (checkTables getTable dataSource).isOk = true
      · refine .inr (.inl ?_)
        by_contra hno
        refine hc ⟨hok, fun q hq ↦ ?_⟩
        by_contra hd
        exact hno ⟨q, hq, by simpa using hd⟩
      · exact .inl (by simpa using hok)
  · intro h failure command hm
    rw [repair_sent hs] at hm
    split at hm
    · next hc =>
      obtain ⟨done, hp, hd⟩ := forM_sent
      rw [hd, List.nil_append] at hm
      obtain ⟨q, hq, rfl⟩ := List.mem_map.mp hm
      rcases h with hno | ⟨q', hq', hdrop⟩ | hadd
      · rw [hc.1] at hno
        cases hno
      · rw [hc.2 q' hq'] at hdrop
        cases hdrop
      · exact hadd q (hp.subset hq)
    · cases hm

def sampleSource : DataSource :=
  ⟨.mysql, [⟨"users", "users", true, .regular, ["guid", "name"], []⟩]⟩

def sampleTable (_ : String) : Except String (Option (List String)) := .ok (some ["guid"])

theorem sample_additive : sampleSource.type = .mysql ∧
    ∀ command ∈ sentAfter (repairSynchronizedSchema (fun _ _ ↦ none) sampleTable sampleSource
      [⟨"ALTER TABLE users ADD name varchar(255) NOT NULL", []⟩]) [], command.IsAdditive :=
  ⟨rfl, (repair_additive_iff _ rfl).mpr (.inr (.inr (by decide +kernel))) (fun _ _ ↦ none)⟩

/-- A statement that changes a column begins with no `DROP`. -/
theorem column_changed : ¬ ∀ failure getTable dataSource schemaDiff, dataSource.type = .mysql →
    ∀ command ∈ sentAfter (repairSynchronizedSchema failure getTable dataSource schemaDiff) [],
      command.IsAdditive := by
  intro hall
  have hsent := hall (fun _ _ ↦ none) sampleTable sampleSource
    [⟨"ALTER TABLE users CHANGE guid id varchar(36) NOT NULL", []⟩] rfl
    (.query "ALTER TABLE users CHANGE guid id varchar(36) NOT NULL" []) (by decide +kernel)
  have hno : ¬Additive "ALTER TABLE users CHANGE guid id varchar(36) NOT NULL" := by
    decide +kernel
  exact hno hsent

end RustdeskConsole.Database
