import Mathlib.Data.Nat.Notation
import Mathlib.Logic.Function.Basic

namespace RustdeskConsole.Updater

open Function

inductive Component
  | backend
  | web
  deriving DecidableEq, Repr

inductive DeploymentKind
  | managedCompose
  | managedLinux
  deriving DecidableEq, Repr

inductive DatabaseKind
  | sqlite
  | mysql
  deriving DecidableEq, Repr

structure Blocker where
  code : String
  message : String
  deriving DecidableEq, Repr

structure ReleaseArtifact where
  url : String
  deriving DecidableEq, Repr

structure ReleaseManifest where
  releaseId : ℕ
  deriving DecidableEq, Repr

structure InstalledComponent where
  version : String
  artifact : ReleaseArtifact
  manifest : ReleaseManifest
  deriving DecidableEq, Repr

/-- The trusted installation record. `workerImage` is the compose section's. -/
structure Installation where
  installationId : String
  deployment : DeploymentKind
  stateDir : String
  dataDir : String
  database : DatabaseKind
  current : Component → InstalledComponent
  workerImage : Option String

/-- What a deployment of this kind runs for a component: the release a link
points to, or the image a container was created from. -/
def DeploymentKind.release : DeploymentKind → InstalledComponent → String
  | .managedLinux, target => target.version
  | .managedCompose, target => target.artifact.url

structure UpdatePlan where
  installationId : String
  updates : Component → Bool
  expiresAt : ℕ
  executable : Bool

structure PersistedPlan where
  view : UpdatePlan
  installationFingerprint : String
  targets : Component → InstalledComponent
  manifestDigests : Component → String

structure BackupContext where
  jobId : String
  database : DatabaseKind
  dataDir : String
  backupDir : String
  servicesStopped : Bool
  deriving DecidableEq, Repr

structure BackupSnapshot where
  jobId : String
  path : String
  deriving DecidableEq, Repr

inductive JobStatus
  | queued
  | running
  | succeeded
  | failed
  | rolledBack
  | recoveryRequired
  deriving DecidableEq, Repr

inductive JobPhase
  | preparing
  | maintenance
  | backingUp
  | switching
  | verifying
  | updatingHelper
  | committing
  | restoring
  deriving DecidableEq, Repr

inductive Decision
  | commitDecided
  | restoreDecided
  deriving DecidableEq, Repr

inductive OperationKey
  | prepare
  | fence
  | stop
  | backup
  | switch
  | validationStart
  | verify
  | helper
  | persistInstallation
  | restoreDeployment
  | restoreData
  deriving DecidableEq, Repr

inductive OperationState
  | intent
  | done
  deriving DecidableEq, Repr

structure JobView where
  jobId : String
  status : JobStatus
  phase : JobPhase
  updatedAt : ℕ
  finishedAt : Option ℕ
  resultCode : Option String
  safeMessage : String
  recoveryGuidance : Option String

/-- The journal of one job. An operation is absent until its intent is recorded. -/
structure JobRecord where
  view : JobView
  plan : PersistedPlan
  originalInstallation : Installation
  snapshot : Option BackupSnapshot
  decision : Option Decision
  operations : OperationKey → Option OperationState

namespace JobRecord

def setOperation (record : JobRecord) (key : OperationKey) (state : OperationState) : JobRecord :=
  { record with operations := update record.operations key (some state) }

@[simp] theorem setOperation_self (record : JobRecord) (key : OperationKey)
    (state : OperationState) : (record.setOperation key state).operations key = some state :=
  update_self ..

@[simp] theorem setOperation_of_ne (record : JobRecord) {key k : OperationKey}
    (state : OperationState) (h : k ≠ key) :
    (record.setOperation key state).operations k = record.operations k :=
  update_of_ne h ..

def setPhase (record : JobRecord) (phase : JobPhase) : JobRecord :=
  { record with view := { record.view with phase := phase } }

@[simp] theorem setPhase_operations (record : JobRecord) (phase : JobPhase) :
    (record.setPhase phase).operations = record.operations := rfl

def setStatus (record : JobRecord) (status : JobStatus) : JobRecord :=
  { record with view := { record.view with status := status } }

def setSnapshot (record : JobRecord) (snapshot : BackupSnapshot) : JobRecord :=
  { record with snapshot := some snapshot }

def setDecision (record : JobRecord) (decision : Decision) : JobRecord :=
  { record with decision := some decision }

/-- `saveJob` stamps the record it writes. -/
def stamp (record : JobRecord) (now : ℕ) : JobRecord :=
  { record with view := { record.view with updatedAt := now } }

def terminal (record : JobRecord) : Bool :=
  [.succeeded, .failed, .rolledBack].contains record.view.status

end JobRecord

/-- `JournalError` is the one error of `saveJob`; everything else is either an
`UpdateError` or an error with no code of its own. -/
inductive Failure
  | journal
  | update (code message : String)
  | unknown
  deriving DecidableEq, Repr

/-- The code and message of `safeError`. -/
def safeError : Failure → String × String
  | .journal => ("JOURNAL_UNAVAILABLE",
      "The durable task journal could not be written. Keep the maintenance fence and recover from the host.")
  | .update code message => (code, message)
  | .unknown => ("EXECUTION_FAILED",
      "The update operation failed. Consult the protected host recovery log.")

structure MaintenanceState where
  jobId : String
  active : Bool
  allowStart : Bool
  deriving DecidableEq, Repr

/-- What the application reads off the maintenance file before it serves business. -/
def businessWritesAllowed (state : Option MaintenanceState) : Bool :=
  !(state.any MaintenanceState.active)

/-- The installation record `commitInstallation` writes. -/
def commitInstallation (installation : Installation) (plan : PersistedPlan) : Installation :=
  { installation with
    current := plan.targets
    workerImage := installation.workerImage.map fun _ ↦ (plan.targets .backend).artifact.url }

end RustdeskConsole.Updater
