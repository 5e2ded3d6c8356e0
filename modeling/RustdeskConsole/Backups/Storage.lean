import RustdeskConsole.Posix.Calls
import RustdeskConsole.Serialization.Json
import RustdeskConsole.Collections.Numeral
import RustdeskConsole.Updater.Contracts
import Mathlib.Data.List.Lex
import Mathlib.Data.List.Sort

namespace RustdeskConsole.Backups

open Collections Effects Posix Serialization
open Calls hiding call
open Updater (Failure)

abbrev Action := Program Failure

structure Space where
  bsize : ℕ
  bavail : ℕ

/-- What surrounds the adapter. Directories nested deeper than `depth` have paths too long for
the system, and `sqlite3` is what the integrity check of a database prints. -/
structure Environment where
  sha256 : List UInt8 → Text
  decode : List UInt8 → Text
  statfs : Location → Volume → Space
  sqlite3 : Location → Volume → Option String × Volume
  toISOString : Text
  owner : Owner
  cwd : Location
  depth : ℕ

inductive DatabaseKind
  | sqlite
  | mysql
  deriving DecidableEq

def DatabaseKind.text : DatabaseKind → Text
  | .sqlite => "sqlite".toList
  | .mysql => "mysql".toList

inductive DatabaseConfig
  | sqlite (path : Path)
  | mysql (host : Text) (port : ℕ) (database : Text)

def DatabaseConfig.kind : DatabaseConfig → DatabaseKind
  | .sqlite _ => .sqlite
  | .mysql _ _ _ => .mysql

structure BackupContext where
  jobId : Text
  database : DatabaseConfig
  dataDir : Path
  backupDir : Path
  servicesStopped : Bool

structure BackupSnapshot where
  schemaVersion : ℕ
  jobId : Text
  database : DatabaseKind
  path : Path
  createdAt : Text
  metadata : Value

inductive Kind
  | file
  | directory
  deriving DecidableEq

def Kind.text : Kind → Text
  | .file => "file".toList
  | .directory => "directory".toList

structure FileEntry where
  path : Text
  kind : Kind
  size : ℕ
  mode : ℕ
  uid : ℕ
  gid : ℕ
  sha256 : Option Text
  deriving DecidableEq

def named (members : List (String × Value)) : Value :=
  .object (members.map fun member ↦ (member.1.toList, member.2))

def FileEntry.toJson (entry : FileEntry) : Value :=
  named ([("path", .string entry.path), ("kind", .string entry.kind.text),
    ("size", .integer entry.size), ("mode", .integer entry.mode), ("uid", .integer entry.uid),
    ("gid", .integer entry.gid)] ++
      (entry.sha256.map fun hash ↦ ("sha256", .string hash)).toList)

structure SnapshotManifest where
  jobId : Text
  database : DatabaseKind
  binding : Text
  createdAt : Text
  databaseFile : Text
  databaseSize : ℕ
  databaseSha256 : Text
  files : List FileEntry
  details : Value

def SnapshotManifest.toJson (manifest : SnapshotManifest) : Value :=
  named [("format", .integer 1), ("jobId", .string manifest.jobId),
    ("database", .string manifest.database.text), ("binding", .string manifest.binding),
    ("createdAt", .string manifest.createdAt), ("databaseFile", .string manifest.databaseFile),
    ("databaseSize", .integer manifest.databaseSize),
    ("databaseSha256", .string manifest.databaseSha256),
    ("files", .array (manifest.files.map FileEntry.toJson)), ("details", manifest.details)]

def isHash (text : Text) : Bool :=
  text.length = 64 && text.all fun c ↦ c.isDigit || ('a' ≤ c && c ≤ 'f')

def MAX_FILES : ℕ := 100000

def containsControl (value : Text) : Bool := value.any fun c ↦ c.toNat < 32 || c.toNat = 127

def encode (text : Text) : List UInt8 := text.flatMap String.utf8EncodeChar

def check (condition : Bool) (code message : String) : Action Unit :=
  Checked.assert condition (.raised (.update code message))

/-- Where `join` leads from a directory. -/
def descend (directory : Location) (path : Path) : Location := (parts path).foldl enter directory

def shared : Location → Location → ℕ
  | a :: as, b :: bs => if a = b then shared as bs + 1 else 0
  | _, _ => 0

def relative (root path : Location) : Path :=
  ofParts (List.replicate (root.length - shared root path) above ++ path.drop (shared root path))

def contained (root path : Location) : Bool :=
  let rel := relative root path
  rel = [] || (!(above ++ ['/']).isPrefixOf rel && rel ≠ above && !isAbsolute rel)

variable (e : Environment)

def resolve (path : Path) : Location := locate e.cwd path

/-- A place, as the text that `resolve` has for it. -/
def written (location : Location) : Text := '/' :: ofParts location

def requireStopped (context : BackupContext) : Action Unit :=
  check context.servicesStopped "BACKUP_MAINTENANCE_REQUIRED"
    "All application writers must be stopped before backup or restore."

def binding (context : BackupContext) : Text :=
  let database := match context.database with
    | .sqlite path => named [("kind", .string DatabaseKind.sqlite.text),
        ("path", .string (written (resolve e path)))]
    | .mysql host port database => named [("kind", .string DatabaseKind.mysql.text),
        ("host", .string host), ("port", .integer port), ("database", .string database)]
  e.sha256 (encode (stringify (named
    [("dataDir", .string (written (resolve e context.dataDir))), ("database", database)])))

def noLinks (path : Location) : Action Unit :=
  path.inits.forM fun way ↦ do
    let info ← lstat way
    check (info.content ≠ .link) "BACKUP_UNSAFE_PATH"
      "Backup paths cannot contain symbolic links."

def hashFile (path : Location) : Action Text := do
  pure (e.sha256 (← readFile path))

def privateDirectory (path : Location) : Action Unit := do
  mkdirAll e.owner path 0o700
  noLinks path
  let info ← stat path
  check (info.content = .directory) "BACKUP_UNSAFE_PATH" "A backup directory is invalid."
  check (info.mode &&& 0o077 = 0) "BACKUP_PERMISSIONS"
    "Private backup directories must not be accessible to other users."

def isJobId (jobId : Text) : Bool :=
  1 ≤ jobId.length && jobId.length ≤ 128 && jobId.all fun c ↦ c.isAlphanum || c = '_' || c = '-'

def assertContext (context : BackupContext) : Action Unit := do
  check (isJobId context.jobId) "BACKUP_INVALID_CONTEXT" "The backup job identity is invalid."
  check (isAbsolute context.dataDir && isAbsolute context.backupDir) "BACKUP_UNSAFE_PATH"
    "Backup and data paths must be absolute."
  check (!contained (resolve e context.dataDir) (resolve e context.backupDir) &&
      !contained (resolve e context.backupDir) (resolve e context.dataDir)) "BACKUP_UNSAFE_PATH"
    "Updater backups must be outside the business data directory."
  noLinks (resolve e context.dataDir)
  let info ← stat (resolve e context.dataDir)
  check (info.content = .directory) "BACKUP_UNSAFE_PATH"
    "The business data directory is invalid."
  privateDirectory e (resolve e context.backupDir)

/-- The units of a text in UTF-16. -/
def codeUnits (text : Text) : List ℕ :=
  text.flatMap fun c ↦
    if c.toNat < 0x10000 then [c.toNat]
    else [0xd800 + (c.toNat - 0x10000) / 0x400, 0xdc00 + (c.toNat - 0x10000) % 0x400]

/-- `sort` without a comparison. -/
def sort (names : List Name) : List Name :=
  names.insertionSort fun left right ↦ codeUnits left ≤ codeUnits right

def entryOf (root path : Location) (info : Node) : FileEntry where
  path := relative root path
  kind := if info.content = .directory then .directory else .file
  size := (info.content.bytes?.getD []).length
  mode := info.mode &&& 0o777
  uid := info.owner.uid
  gid := info.owner.gid
  sha256 := none

theorem lawful_location : LawfulBEq Location := inferInstance

attribute [local instance] lawful_location

section Scan

variable (root : Location) (excluded : List Location) (hashes : Bool)

def scanEntry (path : Location) (info : Node) : Action FileEntry := do
  check (info.content = .directory || (info.content.bytes?.isSome && info.links = 1))
    "BACKUP_UNSAFE_FILE"
    "Business data contains a symbolic link, hard link, or unsupported file type."
  let entry := entryOf root path info
  check (!entry.path.contains '\\' && !containsControl entry.path) "BACKUP_UNSAFE_FILE"
    "Business data contains an unsupported file name."
  if entry.kind = .file && hashes then do
    let hash ← hashFile e path
    pure { entry with sha256 := some hash }
  else pure entry

def visit : ℕ → Location → List FileEntry → Action (List FileEntry)
  | 0, _, _ => throw .system
  | depth + 1, directory, files => do
    let names ← readdir directory
    (sort names).foldlM (fun files name ↦
      if descend directory name ∈ excluded then pure files
      else do
        let info ← lstat (descend directory name)
        let entry ← scanEntry e root hashes (descend directory name) info
        check ((files ++ [entry]).length ≤ MAX_FILES) "BACKUP_FILE_LIMIT"
          "Business data exceeds the supported snapshot file limit."
        if entry.kind = .directory then
          visit depth (descend directory name) (files ++ [entry])
        else pure (files ++ [entry])) files

def scanFiles : Action (List FileEntry) := do
  noLinks root
  visit e root excluded hashes e.depth root []

end Scan

def checkSpace (context : BackupContext) (databaseBytes : ℕ) (excluded : List Location) :
    Action Unit := do
  let entries ← scanFiles e (resolve e context.dataDir) excluded false
  let bytes := (entries.map FileEntry.size).sum + databaseBytes
  [context.backupDir, context.dataDir].forM fun directory ↦ do
    let space ← ask fun volume ↦ .ok (e.statfs (resolve e directory) volume)
    check (space.bavail * space.bsize ≥ bytes * 3 + 64 * 1024 * 1024)
      "BACKUP_INSUFFICIENT_SPACE"
      "There is insufficient disk space for backup and recoverable restoration."

def durableCopy (source destination : Location) : Action Unit := do
  copyFile e.owner source destination
  Calls.chmod destination 0o600
  sync destination

def siblingOf (path : Location) (suffix : Name) : Location :=
  path.dropLast ++ [path.getLastD [] ++ suffix]

def atomicWrite (path : Location) (value : Value) : Action Unit := do
  mkdirAll e.owner path.dropLast 0o700
  let uuid ← draw
  let temporary := siblingOf path ('.' :: uuid ++ ".tmp".toList)
  openNew e.owner temporary 0o600
  Calls.chmod temporary 0o600
  writeFile temporary (encode (stringify value ++ ['\n']))
  sync temporary
  Calls.rename temporary path
  sync path.dropLast

def key (entry : Value) : Value :=
  .array (["path", "kind", "size", "sha256"].map fun name ↦ (entry.get? name).getD .null)

def verifyFiles (directory : Location) (expected : List Value) : Action Unit := do
  let actual ← scanFiles e directory [] true
  check (actual.length = expected.length) "BACKUP_FILES_MISMATCH"
    "The business file snapshot is incomplete."
  check (stringify (.array (actual.map (key ∘ FileEntry.toJson))) =
      stringify (.array (expected.map key))) "BACKUP_FILES_MISMATCH"
    "The business file snapshot failed integrity verification."

def beginSnapshot (context : BackupContext) : Action Location := do
  requireStopped context
  assertContext e context
  let found ← ask fun volume ↦
    match volume.lookup (descend (resolve e context.backupDir) "snapshot".toList) with
    | .ok _ => .ok true
    | .error .missing => .ok false
    | .error errno => .error errno
  check (!found) "BACKUP_ALREADY_EXISTS" "An immutable snapshot already exists for this job."
  mkdtemp e.owner (resolve e context.backupDir) ".snapshot-".toList

def completeSnapshot (context : BackupContext) (staging : Location) (databaseFile : Text)
    (files : List FileEntry) (details : Value) : Action BackupSnapshot := do
  let db := descend staging databaseFile
  let info ← stat db
  let databaseSha256 ← hashFile e db
  let manifest : SnapshotManifest :=
    { jobId := context.jobId
      database := context.database.kind
      binding := binding e context
      createdAt := e.toISOString
      databaseFile := databaseFile
      databaseSize := (info.content.bytes?.getD []).length
      databaseSha256 := databaseSha256
      files := files
      details := details }
  verifyFiles e (descend staging "files".toList) (files.map FileEntry.toJson)
  atomicWrite e (descend staging "snapshot.json".toList) manifest.toJson
  let path := descend (resolve e context.backupDir) "snapshot".toList
  Calls.rename staging path
  sync (resolve e context.backupDir)
  let manifestSha256 ← hashFile e (descend path "snapshot.json".toList)
  pure
    { schemaVersion := 1
      jobId := context.jobId
      database := context.database.kind
      path := written path
      createdAt := manifest.createdAt
      metadata := named [("manifestSha256", .string manifestSha256)] }

def text? : Value → Option Text
  | .string text => some text
  | _ => none

def MAX_SAFE_INTEGER : ℕ := 2 ^ 53 - 1

/-- A number that is a safe integer, and not below zero. -/
def safeInteger? : Value → Option ℕ
  | .integer n => if 0 ≤ n ∧ n ≤ MAX_SAFE_INTEGER then some n.toNat else none
  | _ => none

def kind? (text : Text) : Option Kind :=
  [Kind.file, Kind.directory].find? fun kind ↦ kind.text = text

def isEntryPath (path : Text) : Bool :=
  path.length > 0 && path.head? ≠ some '/' && !path.contains '\\' && !path.contains ':' &&
    !containsControl path &&
    (segments path).all fun part ↦ part ≠ [] && part ≠ current && part ≠ above

/-- The entry that a value is, where it is a valid one. -/
def validEntry (value : Value) : Option FileEntry := do
  let path ← (value.get? "path").bind text?
  guard (isEntryPath path)
  let kind ← ((value.get? "kind").bind text?).bind kind?
  let size ← (value.get? "size").bind safeInteger?
  let mode ← (value.get? "mode").bind safeInteger?
  guard (mode ≤ 0o777)
  let uid ← (value.get? "uid").bind safeInteger?
  let gid ← (value.get? "gid").bind safeInteger?
  let sha256 := (value.get? "sha256").bind text?
  guard (kind = .directory || (sha256.map isHash).getD false)
  pure { path, kind, size, mode, uid, gid, sha256 }

/-- What a manifest says of the snapshot, where it is one of this installation. -/
structure Manifest where
  databaseFile : Text
  databaseSize : Option Value
  databaseSha256 : Text
  files : List Value
  entries : List FileEntry
  details : Option Value

def databaseFile : DatabaseKind → Text
  | .sqlite => "database.sqlite".toList
  | .mysql => "database.sql".toList

def array? : Value → Option (List Value)
  | .array elements => some elements
  | _ => none

def isInteger (value : Option Value) (n : ℕ) : Bool :=
  match value with
  | some (.integer m) => m = n
  | _ => false

def isText (value : Option Value) (text : Text) : Bool :=
  match value with
  | some (.string found) => found = text
  | _ => false

def acceptManifest (context : BackupContext) (manifest : Value) : Option Manifest := do
  guard (isInteger (manifest.get? "format") 1)
  guard (isText (manifest.get? "jobId") context.jobId)
  guard (isText (manifest.get? "database") context.database.kind.text)
  guard (isText (manifest.get? "binding") (binding e context))
  guard (isText (manifest.get? "databaseFile") (databaseFile context.database.kind))
  let databaseSha256 ← (manifest.get? "databaseSha256").bind text?
  guard (isHash databaseSha256)
  let files ← (manifest.get? "files").bind array?
  guard (files.length ≤ MAX_FILES)
  let entries ← files.mapM validEntry
  pure
    { databaseFile := databaseFile context.database.kind
      databaseSize := manifest.get? "databaseSize"
      databaseSha256 := databaseSha256
      files := files
      entries := entries
      details := manifest.get? "details" }

/-- The part of `readSnapshot` that is about the manifest. -/
def readManifest (context : BackupContext) (snapshot : BackupSnapshot) (path : Location) :
    Action Manifest := do
  let manifestPath := descend path "snapshot.json".toList
  noLinks manifestPath
  let info ← stat manifestPath
  check ((info.content.bytes?.getD []).length ≤ 32 * 1024 * 1024) "BACKUP_MANIFEST_INVALID"
    "The backup manifest is too large."
  let hash ← hashFile e manifestPath
  check (isText (snapshot.metadata.get? "manifestSha256") hash) "BACKUP_MANIFEST_INVALID"
    "The backup manifest failed integrity verification."
  let content ← readFile manifestPath
  let value ← Checked.require ((parse (e.decode content)).filter fun value ↦ !value.isNull)
    (.raised .unknown)
  let manifest ← Checked.require (acceptManifest e context value)
    (.raised (.update "BACKUP_MANIFEST_INVALID"
      "The backup manifest is invalid for this installation."))
  check (manifest.entries.map FileEntry.path).Nodup "BACKUP_MANIFEST_INVALID"
    "The backup manifest contains duplicate paths."
  pure manifest

/-- The part of `readSnapshot` that is about the database. -/
def verifyDatabase (manifest : Manifest) (path : Location) : Action Unit := do
  let database := descend path manifest.databaseFile
  noLinks database
  let info ← stat database
  check (info.content.bytes?.isSome &&
      isInteger manifest.databaseSize (info.content.bytes?.getD []).length)
    "BACKUP_DATABASE_INVALID" "The database snapshot failed integrity verification."
  let hash ← hashFile e database
  check (hash = manifest.databaseSha256) "BACKUP_DATABASE_INVALID"
    "The database snapshot failed integrity verification."

def readSnapshot (context : BackupContext) (snapshot : BackupSnapshot) : Action Manifest := do
  assertContext e context
  let path := resolve e snapshot.path
  check (snapshot.schemaVersion = 1 && snapshot.jobId = context.jobId &&
      snapshot.database = context.database.kind &&
      path = descend (resolve e context.backupDir) "snapshot".toList) "BACKUP_SNAPSHOT_MISMATCH"
    "The backup snapshot does not belong to this job."
  noLinks path
  let manifest ← readManifest e context snapshot path
  verifyDatabase e manifest path
  verifyFiles e (descend path "files".toList) manifest.files
  pure manifest

section Restore

variable (context : BackupContext) (snapshot : BackupSnapshot) (manifest : Manifest)
  (excluded : List Location)

def syncCopy (destination : Location) (entry : FileEntry) : Action Unit :=
  if entry.kind = .file then sync destination
  else do
    let copied ← scanFiles e destination [] false
    (copied.filter fun item ↦ item.kind = .file).forM fun item ↦
      sync (descend destination item.path)
    (copied.reverse.filter fun item ↦ item.kind = .directory).forM fun item ↦
      sync (descend destination item.path)

/-- Keep a copy of what stands in the data directory under a name, and then remove it there. -/
def displace (quarantine : Location) (entry : FileEntry) : Action Unit := do
  let source := descend (resolve e context.dataDir) entry.path
  let retainedRoot := descend quarantine "files".toList
  let destination := descend retainedRoot entry.path
  cp e.owner e.depth source destination
  syncCopy e destination entry
  sync retainedRoot
  sync quarantine
  rm e.depth source

def place (entry : FileEntry) : Action Unit := do
  let target := descend (resolve e context.dataDir) entry.path
  let source := descend (descend (resolve e snapshot.path) "files".toList) entry.path
  if entry.kind = .directory then mkdir e.owner target 0o700
  else durableCopy e source target

def own (entry : FileEntry) : Action Unit := do
  let target := descend (resolve e context.dataDir) entry.path
  Calls.chown target ⟨entry.uid, entry.gid⟩
  Calls.chmod target entry.mode
  if entry.kind = .directory then sync target else pure ()

def restoreFiles : Action Unit := do
  requireStopped context
  verifyFiles e (descend (resolve e snapshot.path) "files".toList) manifest.files
  let current ← scanFiles e (resolve e context.dataDir) excluded false
  let quarantine ← mkdtemp e.owner (resolve e context.backupDir) "displaced-files-".toList
  mkdir e.owner (descend quarantine "files".toList) 0o700
  atomicWrite e (descend quarantine "intent.json".toList)
    (named [("jobId", .string context.jobId),
      ("files", .array (current.map fun file ↦ .string file.path))])
  (current.filter fun entry ↦ !entry.path.contains '/').forM (displace e context quarantine)
  manifest.entries.forM (place e context snapshot)
  manifest.entries.reverse.forM (own e context)
  sync (resolve e context.dataDir)
  let restored ← scanFiles e (resolve e context.dataDir) excluded true
  check (stringify (.array (restored.map FileEntry.toJson)) = stringify (.array manifest.files))
    "BACKUP_RESTORE_FILES_INVALID" "Restored business files failed verification."
  atomicWrite e (descend quarantine "restored.json".toList)
    (named [("jobId", .string context.jobId)])

end Restore

def isMissing : Trouble Failure → Bool
  | .missing => true
  | _ => false

def quarantineFile (source directory : Location) : Action Unit :=
  tryCatch
    (do
      let info ← lstat source
      check info.content.bytes?.isSome "BACKUP_UNSAFE_FILE"
        "A database recovery file is unsafe."
      durableCopy e source (descend directory (source.getLastD []))
      sync directory
      Calls.unlink source
      sync source.dropLast)
    fun error ↦ if isMissing error then pure () else throw error

namespace SqliteBackupAdapter

def database (context : BackupContext) : Action Location :=
  match context.database with
  | .sqlite path => do
    check ((resolve e path).dropLast = resolve e context.dataDir) "BACKUP_UNSAFE_PATH"
      "The SQLite database must be directly inside the managed data directory."
    pure (resolve e path)
  | .mysql _ _ _ => throw (.raised (.update "BACKUP_DATABASE_MISMATCH"
      "The backup adapter does not match the configured database."))

def sidecars (path : Location) : List Location :=
  ["-wal", "-shm", "-journal"].map fun suffix ↦ siblingOf path suffix.toList

def excluded (path : Location) : List Location := path :: sidecars path

def run (path : Location) : Action String := fun s ↦
  match e.sqlite3 path s.volume with
  | (some result, volume) => .ok result { s with volume := volume }
  | (none, volume) => .error .system { s with volume := volume }

def integrity (path : Location) : Action Unit := do
  let result ← run e path
  check (trim result = "ok".toList) "SQLITE_INTEGRITY_FAILED"
    "The SQLite database failed integrity verification."

def validate (context : BackupContext) (snapshot : BackupSnapshot) : Action Unit := do
  let manifest ← readSnapshot e context snapshot
  integrity e (descend (resolve e snapshot.path) manifest.databaseFile)

def integer? (value : Option Value) : Option ℕ :=
  match value with
  | some (.integer n) => if 0 ≤ n then some n.toNat else none
  | _ => none

/-- The mode and the owner that a snapshot keeps for the database. -/
def ownership (details : Value) : Option (ℕ × Owner) := do
  let mode ← integer? (details.get? "mode")
  guard (mode ≤ 0o777)
  let uid ← integer? (details.get? "uid")
  let gid ← integer? (details.get? "gid")
  pure (mode, ⟨uid, gid⟩)

def naturalOf (value : Option Value) : ℕ := (integer? value).getD 0

def restore (context : BackupContext) (snapshot : BackupSnapshot) : Action Unit := do
  requireStopped context
  validate e context snapshot
  let manifest ← readSnapshot e context snapshot
  let path ← database e context
  let details ← Checked.require (manifest.details.filter fun details ↦ !details.isNull)
    (.raised .unknown)
  let (mode, owner) ← Checked.require (ownership details)
    (.raised (.update "BACKUP_MANIFEST_INVALID"
      "The SQLite snapshot ownership metadata is invalid."))
  checkSpace e context (naturalOf manifest.databaseSize) (excluded path)
  let quarantine ← mkdtemp e.owner (resolve e context.backupDir) "displaced-sqlite-".toList
  (excluded path).forM fun source ↦ quarantineFile e source quarantine
  restoreFiles e context snapshot manifest (excluded path)
  durableCopy e (descend (resolve e snapshot.path) manifest.databaseFile) path
  Calls.chown path owner
  Calls.chmod path mode
  sync (resolve e context.dataDir)
  integrity e path

end SqliteBackupAdapter

end RustdeskConsole.Backups
