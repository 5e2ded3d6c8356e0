import Mathlib.Logic.Function.Basic
import RustdeskConsole.Effects.Machine
import RustdeskConsole.Posix.Paths

namespace RustdeskConsole.NexusBuilds

open Effects Function Posix

inductive Failure
  | badRequest (message : String)
  | internal (message : String)
  deriving DecidableEq

inductive BuildStatus
  | pending
  | building
  | completed
  | failed
  | cancelled
  deriving DecidableEq

def BuildStatus.terminal : BuildStatus → Bool
  | .completed | .failed | .cancelled => true
  | .pending | .building => false

structure NexusBuild where
  uuid : String
  userGuid : String
  status : BuildStatus
  files : Option (List String)
  message : Option String
  deriving DecidableEq

structure NexusToken where
  userGuid : String
  nexusToken : String
  expiresAt : ℕ
  currentUuid : Option String
  deriving DecidableEq

structure NexusBuildStatusResponse where
  status : BuildStatus
  files : Option (List String)
  message : Option String
  deriving DecidableEq

/-- The answer to a download. A body that is broken ends before the last byte. -/
inductive DownloadResponse
  | refused
  | empty
  | body (bytes : List UInt8) (broken : Bool)
  deriving DecidableEq

/-- What a poll has to download. -/
structure Download where
  call : ℕ
  uuid : String
  files : List String
  deriving DecidableEq

/-- A poll has selected the active jobs, or a final status was stored for a job. -/
inductive Event
  | selected (call : ℕ)
  | final (uuid : String)
  deriving DecidableEq

/-- Since the poll has selected its jobs, a final status was stored for this one. -/
def overtaken (call : ℕ) (uuid : String) : List Event → Bool
  | [] => false
  | .selected _ :: events => overtaken call uuid events
  | .final job :: events =>
    decide (job = uuid ∧ .selected call ∈ events) || overtaken call uuid events

/-- The tables, the artifacts on the disk with the polls that write to them, the
uuids being downloaded, what the polls still have to download for the jobs
that they have stored as completed, and in which order they select and store. -/
structure World where
  builds : List NexusBuild
  tokens : List NexusToken
  downloadingSet : List Download
  disk : Location → Option (List UInt8)
  streams : Location → Option ℕ
  owed : List Download
  events : List Event
  disturbed : Bool

/-- How a download is served: it may break off at any byte. -/
inductive Service
  | unreachable (failure : Failure)
  | refused
  | empty
  | broken (count : ℕ)
  | whole
  deriving DecidableEq

/-- What the world decides about one command. -/
structure Choice where
  allowed : Bool
  now : ℕ
  outcome : Except Failure Unit
  status : Except Failure (Option NexusBuildStatusResponse)
  service : Service

section Paths

/-- `relative`, between two absolute places. -/
def relative : Location → Location → List Name
  | source :: sources, target :: targets =>
    if source = target then relative sources targets
    else List.replicate (sources.length + 1) above ++ target :: targets
  | sources, targets => List.replicate sources.length above ++ targets

variable (storagePath : Location)

def safeJoin (segments : List String) : Except Failure Location :=
  let target := segments.foldl (fun location segment ↦ locate location segment.toList) storagePath
  if above.isPrefixOf (ofParts (relative storagePath target)) || storagePath = target then
    .error (.badRequest "Invalid path")
  else .ok target

end Paths

/-- The rows with one job updated; what is not set stays. -/
def updateRows (builds : List NexusBuild) (uuid : String) (status : BuildStatus)
    (files : Option (List String)) (message : Option String) : List NexusBuild :=
  builds.map fun build ↦
    if build.uuid = uuid then
      { build with status, files := files.or build.files, message := message.or build.message }
    else build

namespace World

variable (storagePath : Location) (artifact : String → String → List UInt8) (call : ℕ) (w : World)

def activeBuilds : List NexusBuild :=
  w.builds.filter fun build ↦ build.status = .pending || build.status = .building

/-- All bytes of the artifact are there, and nobody is writing any more. -/
def Whole (uuid file : String) : Prop :=
  ∃ path, safeJoin storagePath [uuid, file] = .ok path ∧
    w.disk path = some (artifact uuid file) ∧ w.streams path = none

instance (uuid file : String) : Decidable (w.Whole storagePath artifact uuid file) :=
  match h : safeJoin storagePath [uuid, file] with
  | .error _ => isFalse fun ⟨_, hp, _⟩ ↦ by rw [h] at hp; cases hp
  | .ok path => decidable_of_iff (w.disk path = some (artifact uuid file) ∧ w.streams path = none)
      ⟨fun hw ↦ ⟨path, h, hw⟩, fun ⟨_, hp, hw⟩ ↦ by rw [h] at hp; cases hp; exact hw⟩

def updateBuild (uuid : String) (status : BuildStatus) (files : Option (List String))
    (message : Option String) : World :=
  { w with
    builds := updateRows w.builds uuid status files message
    owed := if status = .completed && !(files.getD []).isEmpty then
        ⟨call, uuid, files.getD []⟩ :: w.owed
      else w.owed
    events := if status.terminal then .final uuid :: w.events else w.events }

def findActive : World × List NexusBuild :=
  ({ w with events := .selected call :: w.events }, w.activeBuilds)

/-- Whether the poll is to download, after `mkdirSync`. -/
def beginDownload (uuid : String) (files : List String) (outcome : Except Failure Unit) :
    World × Except Failure Bool :=
  if w.downloadingSet.any (·.uuid = uuid) then
    ({ w with owed := w.owed.filter fun d ↦ ¬(d.call = call ∧ d.uuid = uuid) }, .ok false)
  else
    ({ w with downloadingSet := ⟨call, uuid, files⟩ :: w.downloadingSet }, do
      let _ ← safeJoin storagePath [uuid]
      outcome
      pure true)

/-- The path of a file that is not there yet. -/
def existsFile (uuid file : String) : Except Failure (Option Location) := do
  let filePath ← safeJoin storagePath [uuid, file]
  pure (if (w.disk filePath).isSome then none else some filePath)

def fetchFile (uuid file : String) : Service → Except Failure DownloadResponse
  | .unreachable failure => .error failure
  | .refused => .ok .refused
  | .empty => .ok .empty
  | .broken count => .ok (.body ((artifact uuid file).take count) true)
  | .whole => .ok (.body (artifact uuid file) false)

/-- A file that cannot be opened has no stream. -/
def createWriteStream (filePath : Location) : Except Failure Unit → World
  | .error _ => w
  | .ok () => { w with
      disk := update w.disk filePath (some [])
      streams := update w.streams filePath (some call) }

def writeByte (filePath : Location) (byte : UInt8) : World :=
  if w.streams filePath = some call then
    { w with disk := update w.disk filePath ((w.disk filePath).map (· ++ [byte])) }
  else w

def finish (filePath : Location) (outcome : Except Failure Unit) : World × Except Failure Unit :=
  if w.streams filePath = some call then
    ({ w with streams := update w.streams filePath none }, outcome)
  else (w, .error (.internal "write failed"))

def endDownload (uuid : String) : World :=
  { w with
    downloadingSet := w.downloadingSet.filter (·.uuid ≠ uuid)
    owed := w.owed.filter fun d ↦ ¬(d.call = call ∧ d.uuid = uuid) }

def saveToken (token : NexusToken) : World :=
  { w with tokens := w.tokens.filter (·.userGuid ≠ token.userGuid) ++ [token] }

end World

inductive Command
  | businessWritesAllowed
  | findActive
  | findToken (userGuid : String)
  | fetchStatus (nexusToken uuid : String)
  | updateBuild (uuid : String) (status : BuildStatus) (files : Option (List String))
      (message : Option String)
  | saveToken (token : NexusToken)
  | beginDownload (uuid : String) (files : List String)
  | existsFile (uuid file : String)
  | fetchFile (nexusToken uuid file : String)
  | createWriteStream (filePath : Location)
  | writeByte (filePath : Location) (byte : UInt8)
  | finish (filePath : Location)
  | endDownload (uuid : String)

@[reducible] def Reply : Command → Type
  | .businessWritesAllowed => Bool
  | .findActive => Except Failure (List NexusBuild)
  | .findToken _ => Except Failure (Option NexusToken × ℕ)
  | .fetchStatus .. => Except Failure (Option NexusBuildStatusResponse)
  | .beginDownload .. => Except Failure Bool
  | .existsFile .. => Except Failure (Option Location)
  | .fetchFile .. => Except Failure DownloadResponse
  | .createWriteStream _ | .writeByte .. | .endDownload _ => Unit
  | .updateBuild .. | .saveToken _ | .finish _ => Except Failure Unit

section Machine

variable (storagePath : Location) (artifact : String → String → List UInt8)

def perform (call : ℕ) : (c : Command) → Choice → World → World × Reply c
  | .businessWritesAllowed, o, w => (w, o.allowed)
  | .findActive, o, w =>
    match o.outcome with
    | .ok () => (w.findActive call).map id .ok
    | .error failure => (w, .error failure)
  | .findToken userGuid, o, w =>
    (w, o.outcome.map fun _ ↦ (w.tokens.find? (·.userGuid = userGuid), o.now))
  | .fetchStatus .., o, w => (w, o.status)
  | .updateBuild uuid status files message, o, w =>
    match o.outcome with
    | .ok () => (w.updateBuild call uuid status files message, .ok ())
    | .error failure => (w, .error failure)
  | .saveToken token, o, w =>
    match o.outcome with
    | .ok () => (w.saveToken token, .ok ())
    | .error failure => (w, .error failure)
  | .beginDownload uuid files, o, w => w.beginDownload storagePath call uuid files o.outcome
  | .existsFile uuid file, _, w => (w, w.existsFile storagePath uuid file)
  | .fetchFile _ uuid file, o, w => (w, World.fetchFile artifact uuid file o.service)
  | .createWriteStream filePath, o, w => (w.createWriteStream call filePath o.outcome, ())
  | .writeByte filePath byte, _, w => (w.writeByte call filePath byte, ())
  | .finish filePath, o, w => w.finish call filePath o.outcome
  | .endDownload uuid, _, w => (w.endDownload call uuid, ())

/-- A step after which the mirror may not be true: a poll stores an answer that is not
final for a job, although a final one was stored since it selected the job; an answer
leaves files listed that it does not name; a download is left to another one that has
fewer files; a file that is found is not whole, or one is opened that is there; or the
download fails at this point. -/
def disturbs (call : ℕ) : Command → Choice → World → Bool
  | .updateBuild uuid status files _, o, w =>
    o.outcome.isOk && (!status.terminal && overtaken call uuid w.events ||
      status = .completed && files.isNone && w.builds.any fun build ↦ build.uuid = uuid &&
        !(build.files.getD []).all fun file ↦ w.Whole storagePath artifact uuid file)
  | .beginDownload uuid files, o, w =>
    if w.downloadingSet.any (·.uuid = uuid) then
      !w.downloadingSet.any fun d ↦ d.uuid = uuid && files.all (· ∈ d.files)
    else !(safeJoin storagePath [uuid]).isOk || !o.outcome.isOk
  | .existsFile uuid file, _, w =>
    match w.existsFile storagePath uuid file with
    | .error _ => true
    | .ok none => !w.Whole storagePath artifact uuid file
    | .ok (some _) => false
  | .fetchFile .., o, _ => o.service ≠ .whole
  | .createWriteStream filePath, o, w => !o.outcome.isOk || (w.disk filePath).isSome
  | .finish _, o, _ => !o.outcome.isOk
  | _, _, _ => false

def exec (call : ℕ) (c : Command) (o : Choice) (w : World) : World × Option (Reply c) :=
  let next := perform storagePath artifact call c o w
  ({ next.1 with disturbed := w.disturbed || disturbs storagePath artifact call c o w },
    some next.2)

abbrev Handler := Process Command Reply Unit Failure

def ask (c : Command) : Handler (Reply c) := invoke c .ok

def writeBody (filePath : Location) : List UInt8 → Bool → Handler Unit
  | [], broken =>
    if broken then throw (.internal "terminated")
    else invoke (.finish filePath) fun reply ↦ reply
  | byte :: bytes, broken => do
    ask (.writeByte filePath byte)
    writeBody filePath bytes broken

def downloadFile (nexusToken uuid file : String) : Handler Unit := do
  match ← invoke (.existsFile uuid file) fun reply ↦ reply with
  | none => pure ()
  | some filePath =>
    match ← invoke (.fetchFile nexusToken uuid file) fun reply ↦ reply with
    | .refused => throw (.internal ("Failed to download build artifact " ++ file))
    | .empty =>
      ask (.createWriteStream filePath)
      throw (.internal ("Failed to download build artifact " ++ file ++ ": empty response body"))
    | .body bytes broken =>
      ask (.createWriteStream filePath)
      writeBody filePath bytes broken

def downloadFiles (nexusToken uuid : String) : List String → Handler Unit
  | [] => pure ()
  | file :: files => do
    downloadFile nexusToken uuid file
    downloadFiles nexusToken uuid files

def downloadBuildFilesToLocal (nexusToken uuid : String) (files : List String) :
    Handler Unit := do
  if ← invoke (.beginDownload uuid files) fun reply ↦ reply then
    tryCatch (downloadFiles nexusToken uuid files) fun failure ↦ do
      ask (.endDownload uuid)
      throw failure
    ask (.endDownload uuid)
  else pure ()

/-- The token as it was read is saved once more. -/
def clearCurrent (nexusToken : NexusToken) (uuid : String) (status : BuildStatus) :
    Handler Unit :=
  if status.terminal && nexusToken.currentUuid = some uuid then
    invoke (.saveToken { nexusToken with currentUuid := none }) fun reply ↦ reply
  else pure ()

def syncBuildStatus (build : NexusBuild) : Handler Unit := do
  let (found, now) ← invoke (.findToken build.userGuid) fun reply ↦ reply
  match found.filter (now ≤ ·.expiresAt) with
  | none =>
    invoke (.updateBuild build.uuid .failed none (some "Nexus token has expired")) fun reply ↦ reply
  | some nexusToken =>
    match ← invoke (.fetchStatus nexusToken.nexusToken build.uuid) fun reply ↦ reply with
    | none => pure ()
    | some data =>
      invoke (.updateBuild build.uuid data.status data.files data.message) fun reply ↦ reply
      if data.status = .completed && !(data.files.getD []).isEmpty then
        downloadBuildFilesToLocal nexusToken.nexusToken build.uuid (data.files.getD [])
      clearCurrent nexusToken build.uuid data.status

def syncAll : List NexusBuild → Handler Unit
  | [] => pure ()
  | build :: builds => do
    syncBuildStatus build
    syncAll builds

def pollActiveBuilds : Handler Unit := do
  if ← ask .businessWritesAllowed then
    tryCatch (do
      let activeBuilds ← invoke .findActive fun reply ↦ reply
      syncAll activeBuilds) fun _ ↦ pure ()
  else pure ()

def handler : Prog Command Reply Unit := pollActiveBuilds.start () >>= fun _ ↦ .done ()

/-- A poll that nothing is known of. -/
def Unused (call : ℕ) (w : World) : Prop :=
  (∀ d ∈ w.owed, d.call ≠ call) ∧ (∀ d ∈ w.downloadingSet, d.call ≠ call) ∧
    (∀ filePath, w.streams filePath ≠ some call) ∧ .selected call ∉ w.events

def machine : Machine ℕ Command Reply Choice World where
  exec := exec storagePath artifact
  admits call w p := Unused call w ∧ p = handler

end Machine

end RustdeskConsole.NexusBuilds
