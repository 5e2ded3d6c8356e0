import RustdeskConsole.Updater.World

namespace RustdeskConsole.Updater

open Effects

/-- The worker's memory is the job record it loaded; what it has changed in it
but not saved is lost when it stops. -/
abbrev Worker := Process Command Reply JobRecord Failure

namespace Worker

def now : Worker ℕ := invoke .now .ok
def readJob : Worker JobRecord := invoke .readJob fun reply ↦ reply
def saveJob (record : JobRecord) : Worker Unit := invoke (.saveJob record) fun reply ↦ reply
def enterRecover : Worker Unit := invoke .enterRecover .ok

def writeMaintenance (jobId : String) (active allowStart : Bool) : Worker Unit :=
  invoke (.writeMaintenance ⟨jobId, active, allowStart⟩) fun reply ↦ reply

def perform (c : Command) (h : Reply c = Except Failure Unit) : Worker Unit :=
  invoke c fun reply ↦ h ▸ reply

def assert (condition : Bool) (code message : String) : Worker Unit :=
  if condition then pure () else throw (.update code message)

/-- A `catch` that lets a `JournalError` through. -/
def unlessJournal (body : Worker Unit) (handler : Failure → Worker Unit) : Worker Unit :=
  tryCatch body fun error ↦ if error = .journal then throw .journal else handler error

end Worker

open Worker

def backupContext (installation : Installation) (jobId : String) (servicesStopped : Bool) :
    BackupContext where
  jobId := jobId
  database := installation.database
  dataDir := installation.dataDir
  backupDir := installation.stateDir ++ "/backups/" ++ jobId
  servicesStopped := servicesStopped

def revalidateRelease (plan : PersistedPlan) (component : Component) : Worker Unit := do
  let digest ← invoke (.exactManifest component (plan.targets component).manifest.releaseId)
    fun reply ↦ reply
  assert (digest = plan.manifestDigests component) "RELEASE_CHANGED"
    "An official release changed. Preview the update again."

/-- `Planner.revalidate`. -/
def revalidate (installation : Installation) (plan : PersistedPlan) (execution : Bool) :
    Worker Unit := do
  assert (plan.view.installationId = installation.installationId && plan.view.executable)
    "PLAN_NOT_EXECUTABLE" "The update plan cannot be executed."
  if !execution then
    assert (plan.view.expiresAt > (← now)) "PLAN_EXPIRED"
      "The update plan expired. Preview the update again."
  let fingerprint ← invoke (.fingerprint installation) fun reply ↦ reply
  assert (plan.installationFingerprint = fingerprint) "INSTALLATION_DRIFT"
    "The running installation changed. Preview the update again."
  revalidateRelease plan .backend
  revalidateRelease plan .web
  let blockers ← invoke (.blockers installation) .ok
  match blockers with
  | [] => pure ()
  | blocker :: _ => throw (.update blocker.code blocker.message)

namespace UpdateWorker

/-- An operation's intent is durable before its action begins. -/
def operation (key : OperationKey) (action : Worker Unit) : Worker Unit := do
  modify (·.setOperation key .intent)
  saveJob (← get)
  action
  modify (·.setOperation key .done)
  saveJob (← get)

def phase (phase : JobPhase) : Worker Unit := do
  modify (·.setPhase phase)
  saveJob (← get)

def recoveryGuidance (jobId : String) : String :=
  "Keep business services isolated. Use the installed host recovery command with job " ++ jobId ++
    "; retain the protected updater state and backup."

def finished (record : JobRecord) (status : JobStatus) (code message : String) (at_ : ℕ) :
    JobRecord :=
  { record with
    view := { record.view with
      status := status
      resultCode := some code
      safeMessage := message
      finishedAt := some at_
      recoveryGuidance :=
        if status = .recoveryRequired then some (recoveryGuidance record.view.jobId) else none } }

def finish (status : JobStatus) (code message : String) : Worker Unit := do
  let finishedAt ← now
  modify (finished · status code message finishedAt)
  saveJob (← get)

/-- The decision enters the record in memory only after its copy was saved. -/
def decide (decision : Decision) : Worker Unit := do
  saveJob ((← get).setDecision decision)
  modify (·.setDecision decision)

/-- Once a decision is persisted, every retry only verifies and reopens. The
first save makes a decision durable that a restart merely found visible. -/
def completeDecision (installation : Installation) : Worker Unit := do
  let record ← get
  let restored := record.decision = some .restoreDecided
  unlessJournal
    (do
      saveJob record
      perform (.verify installation record.plan restored) rfl
      writeMaintenance record.view.jobId false true
      if restored then
        finish .rolledBack "RESTORED"
          "The previous applications, database and business files were restored and verified."
      else
        finish .succeeded "UPDATED" "The system update was verified and committed.")
    fun _ ↦ finish .recoveryRequired "POST_DECISION_REPAIR_REQUIRED"
      "The durable decision is preserved. Repair service availability without restoring an older database snapshot."

def restoreUncertain : Failure :=
  .update "RESTORE_UNCERTAIN"
    "Interrupted data restoration needs manual verification before retrying."

/-- The snapshot a restore may start from. -/
def restorable (record : JobRecord) : Worker BackupSnapshot :=
  match record.snapshot with
  | none => throw restoreUncertain
  | some snapshot =>
    if record.operations .restoreData = some .intent then throw restoreUncertain else pure snapshot

def restoreData (installation : Installation) (snapshot : BackupSnapshot) : Worker Unit := do
  let context := backupContext installation (← get).view.jobId true
  perform (.validate context snapshot) rfl
  perform (.restore context snapshot) rfl

/-- Close the fence again and stop what may have been started behind it. -/
def isolate : Worker Unit := do
  let record ← get
  if (record.operations .fence).isSome then
    writeMaintenance record.view.jobId true false
    perform .stopApplications rfl

def rollBack (installation : Installation) : Worker Unit := do
  phase .restoring
  let snapshot ← restorable (← get)
  operation .restoreDeployment do
    perform (.restoreDeployment installation (← get)) rfl
  if (← get).operations .restoreData ≠ some .done then
    operation .restoreData (restoreData installation snapshot)

def reopen (installation : Installation) : Worker Unit := do
  let record ← get
  if (record.operations .fence).isSome then
    writeMaintenance record.view.jobId true true
    perform .startApplications rfl
    perform (.verify installation record.plan true) rfl

def recover (installation : Installation) (cause : Failure) : Worker Unit := do
  if (← get).decision.isSome then
    completeDecision installation
  else
    enterRecover
    unlessJournal
      (do
        let switched := ((← get).operations .switch).isSome
        isolate
        if switched then
          rollBack installation
        reopen installation
        if switched then
          decide .restoreDecided
          completeDecision installation
        else
          writeMaintenance (← get).view.jobId false true
          finish .failed (safeError cause).1 (safeError cause).2)
      fun _ ↦ finish .recoveryRequired "RECOVERY_REQUIRED"
        "Automatic recovery could not be proved. Business access remains fenced; preserve backups and use host recovery."

def takeBackup (installation : Installation) : Worker Unit := do
  let context := backupContext installation (← get).view.jobId true
  let snapshot ← invoke (.backup context) fun reply ↦ reply
  modify (·.setSnapshot snapshot)
  perform (.validate context snapshot) rfl

def prepareAndFence (installation : Installation) : Worker Unit := do
  revalidate installation (← get).plan true
  operation .prepare do perform (.prepare installation (← get).plan) rfl
  phase .maintenance
  operation .fence do writeMaintenance (← get).view.jobId true false
  operation .stop (perform .stopApplications rfl)

def backUpAndSwitch (installation : Installation) : Worker Unit := do
  phase .backingUp
  operation .backup (takeBackup installation)
  phase .switching
  operation .switch do perform (.switchApplications installation (← get).plan) rfl

def startBehindFence : Worker Unit :=
  operation .validationStart do
    writeMaintenance (← get).view.jobId true true
    perform .startApplications rfl

def verifyTargets (installation : Installation) : Worker Unit := do
  phase .verifying
  operation .verify do perform (.verify installation (← get).plan false) rfl
  phase .updatingHelper
  operation .helper do perform (.updateHelper installation (← get).plan) rfl

def persistInstallation (installation : Installation) : Worker Unit := do
  phase .committing
  operation .persistInstallation do perform (.commit installation (← get).plan) rfl

def interrupted : Failure :=
  .update "WORKER_INTERRUPTED" "The update was interrupted before its commit decision."

/-- `UpdateWorker.run`. The stages of its `try` block have names of their own. -/
def run (installation : Installation) : Worker Unit := do
  set (← readJob)
  let record ← get
  if record.terminal || record.view.status = .recoveryRequired then
    pure ()
  else if record.decision.isSome then
    completeDecision installation
  else if record.view.status = .running then
    recover installation interrupted
  else
    modify (·.setStatus .running)
    saveJob (← get)
    unlessJournal
      (do
        prepareAndFence installation
        backUpAndSwitch installation
        startBehindFence
        verifyTargets installation
        persistInstallation installation
        decide .commitDecided
        completeDecision installation)
      (recover installation)

end UpdateWorker

/-- `updaterMain` in its `worker` mode. The installation is the one the job was
accepted for. The execution lock keeps other workers and `recover` out. -/
def workerMain : Worker Unit := do
  let record ← readJob
  UpdateWorker.run record.originalInstallation

/-- `updaterMain` in its `recover` mode. It only persists the request; the
supervisor starts the worker. -/
def recoverMain : Worker Unit := do
  let _ ← readJob
  let record ← readJob
  assert (record.decision.isSome || record.operations .restoreData ≠ some .intent)
    "RESTORE_UNCERTAIN"
    "An interrupted database restoration needs manual verification. Preserve the recovery set and consult the host recovery guide."
  if record.view.status = .recoveryRequired then
    saveJob (record.setStatus .running)
  perform (.startWorker record.view.jobId) rfl

/-- The updater's machine: whenever nothing runs, the supervisor or an operator
may start either mode. -/
def machine : Machine Unit Command Reply Choice World where
  exec _ := exec
  admits _ _ p := ∃ main ∈ [workerMain, recoverMain], ∃ memory,
    p = (fun _ ↦ ()) <$> main.start memory

end RustdeskConsole.Updater
