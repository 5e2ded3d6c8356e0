import RustdeskConsole.Effects.Machine
import RustdeskConsole.Updater.Contracts

namespace RustdeskConsole.Updater

open Effects

/-- What a run leaves in its history, newest first. A call that only reads, or
whose effects show in the files, leaves nothing. -/
inductive Event
  | jobRead (record : JobRecord)
  | jobSaved (record : JobRecord)
  | maintenanceWritten (state : MaintenanceState)
  | maintenanceFailed (record : JobRecord) (before : Option MaintenanceState)
      (state : MaintenanceState) (landed : Bool)
  | recoverEntered
  | applicationsStopped
  | startCalled
  | switchCalled
  | backupTaken (snapshot : BackupSnapshot)
  | restoreCalled

/-- The host as the worker of one job finds it: the visible contents of the
files, what is deployed and what runs. -/
structure World where
  job : JobRecord
  maintenance : Option MaintenanceState
  installation : Installation
  deployed : Component → String
  running : Component → Bool
  history : List Event

inductive Command
  | now
  | readJob
  | saveJob (record : JobRecord)
  | writeMaintenance (state : MaintenanceState)
  | enterRecover
  | fingerprint (installation : Installation)
  | exactManifest (component : Component) (releaseId : ℕ)
  | blockers (installation : Installation)
  | prepare (installation : Installation) (plan : PersistedPlan)
  | stopApplications
  | switchApplications (installation : Installation) (plan : PersistedPlan)
  | startApplications
  | verify (installation : Installation) (plan : PersistedPlan) (restored : Bool)
  | updateHelper (installation : Installation) (plan : PersistedPlan)
  | restoreDeployment (installation : Installation) (record : JobRecord)
  | commit (installation : Installation) (plan : PersistedPlan)
  | startWorker (jobId : String)
  | backup (context : BackupContext)
  | validate (context : BackupContext) (snapshot : BackupSnapshot)
  | restore (context : BackupContext) (snapshot : BackupSnapshot)

@[reducible] def Reply : Command → Type
  | .now => ℕ
  | .readJob => Except Failure JobRecord
  | .fingerprint _ | .exactManifest _ _ => Except Failure String
  | .blockers _ => List Blocker
  | .backup _ => Except Failure BackupSnapshot
  | .enterRecover => Unit
  | _ => Except Failure Unit

inductive Ending
  | returns
  | throws (error : Option (String × String))
  | dies

/-- What the host decides about one call. A call that does not return may have
got any distance: `landed` says whether an `atomicWrite` passed its rename, and
`deployed` and `running` are what a broken-off deployment step leaves. -/
structure Choice where
  ending : Ending
  landed : Bool
  clock : ℕ
  deployed : Component → String
  running : Component → Bool
  text : String
  snapshot : BackupSnapshot
  blockers : List Blocker

def Ending.failure : Option (String × String) → Failure
  | some (code, message) => .update code message
  | none => .unknown

namespace Choice

def reply {α : Type} (o : Choice) (a : α) : Option (Except Failure α) :=
  match o.ending with
  | .returns => some (.ok a)
  | .throws error => some (.error (Ending.failure error))
  | .dies => none

/-- Whether the new contents of an `atomicWrite` became visible. -/
def visible (o : Choice) : Bool :=
  match o.ending with
  | .returns => true
  | _ => o.landed

end Choice

namespace World

def record (w : World) (event : Event) : World := { w with history := event :: w.history }

def saveJob (w : World) (record : JobRecord) (o : Choice) : World × Option (Except Failure Unit) :=
  let w' := if o.visible then { w with job := record.stamp o.clock } else w
  match o.ending with
  | .returns => (w'.record (.jobSaved record), some (.ok ()))
  | .throws _ => (w', some (.error .journal))
  | .dies => (w', none)

def writeMaintenance (w : World) (state : MaintenanceState) (o : Choice) :
    World × Option (Except Failure Unit) :=
  let w' := if o.visible then { w with maintenance := some state }.record (.maintenanceWritten state)
    else w
  match o.ending with
  | .throws _ => (w'.record (.maintenanceFailed w.job w.maintenance state o.landed), o.reply ())
  | _ => (w', o.reply ())

/-- Both adapters compare what each service runs with the expected release
before they read the health endpoints. -/
def verify (w : World) (installation : Installation) (plan : PersistedPlan) (restored : Bool)
    (o : Choice) : World × Option (Except Failure Unit) :=
  let targets := if restored then installation.current else plan.targets
  let release := installation.deployment.release
  if w.deployed .backend = release (targets .backend) ∧ w.deployed .web = release (targets .web) then
    (w, o.reply ())
  else
    (w, some (.error (match installation.deployment with
      | .managedLinux => .update "BUNDLE_VERSION_MISMATCH"
          "The running release link is not the verified target."
      | .managedCompose => .update "IMAGE_IDENTITY_MISMATCH"
          "The running service does not match the expected release.")))

/-- A deployment step leaves `deployed` when it returns and anything when it does not. -/
def deploy (w : World) (deployed : Component → String) (o : Choice) :
    World × Option (Except Failure Unit) :=
  match o.ending with
  | .returns => ({ w with deployed := deployed }, o.reply ())
  | _ => ({ w with deployed := o.deployed }, o.reply ())

def install (w : World) (installation : Installation) (o : Choice) : World :=
  if o.visible then { w with installation := installation } else w

/-- The installation record is the last file `commit` writes. -/
def commit (w : World) (installation : Installation) (plan : PersistedPlan) (o : Choice) :
    World × Option (Except Failure Unit) :=
  (w.install (commitInstallation installation plan) o, o.reply ())

/-- The native adapter points every link back, the compose adapter recreates
the containers of the updated services; both then write the original record. -/
def restoreDeployment (w : World) (installation : Installation) (job : JobRecord) (o : Choice) :
    World × Option (Except Failure Unit) :=
  let original := job.originalInstallation
  let restored := fun component ↦
    if installation.deployment = .managedLinux ∨ job.plan.view.updates component then
      installation.deployment.release (original.current component)
    else w.deployed component
  (w.install original o).deploy restored o

section Frame

variable (w : World) (o : Choice)

@[simp] theorem verify_fst (installation : Installation) (plan : PersistedPlan)
    (restored : Bool) : (w.verify installation plan restored o).1 = w := by
  simp only [verify, apply_ite Prod.fst, ite_self]

@[simp] theorem writeMaintenance_job (state : MaintenanceState) :
    (w.writeMaintenance state o).1.job = w.job := by
  rcases ho : o.ending with _ | _ | _ <;> rcases hl : o.landed with _ | _ <;>
    simp [writeMaintenance, Choice.visible, record, ho, hl]

@[simp] theorem deploy_job (deployed : Component → String) :
    (w.deploy deployed o).1.job = w.job := by
  rcases ho : o.ending with _ | _ | _ <;> simp only [deploy, ho]

@[simp] theorem install_job (installation : Installation) :
    (w.install installation o).job = w.job := by
  rcases hv : o.visible with _ | _ <;> simp [install, hv]

end Frame

end World

def exec : (c : Command) → Choice → World → World × Option (Reply c)
  | .now, o, w => (w, some o.clock)
  | .readJob, o, w => (w.record (.jobRead w.job), o.reply w.job)
  | .saveJob record, o, w => w.saveJob record o
  | .writeMaintenance state, o, w => w.writeMaintenance state o
  | .enterRecover, _, w => (w.record .recoverEntered, some ())
  | .fingerprint _, o, w => (w, o.reply o.text)
  | .exactManifest _ _, o, w => (w, o.reply o.text)
  | .blockers _, o, w => (w, some o.blockers)
  | .prepare _ _, o, w => (w, o.reply ())
  | .stopApplications, o, w =>
    match o.ending with
    | .returns => ({ w with running := fun _ ↦ false }.record .applicationsStopped, o.reply ())
    | _ => ({ w with running := o.running }, o.reply ())
  | .switchApplications installation plan, o, w =>
    (w.record .switchCalled).deploy (fun component ↦
      if plan.view.updates component then installation.deployment.release (plan.targets component)
      else w.deployed component) o
  | .startApplications, o, w => ({ w with running := o.running }.record .startCalled, o.reply ())
  | .verify installation plan restored, o, w => w.verify installation plan restored o
  | .updateHelper _ _, o, w => (w, o.reply ())
  | .restoreDeployment installation job, o, w => w.restoreDeployment installation job o
  | .commit installation plan, o, w => w.commit installation plan o
  | .startWorker _, o, w => (w, o.reply ())
  | .backup _, o, w =>
    match o.ending with
    | .returns => (w.record (.backupTaken o.snapshot), o.reply o.snapshot)
    | _ => (w, o.reply o.snapshot)
  | .validate _ _, o, w => (w, o.reply ())
  | .restore _ _, o, w => (w.record .restoreCalled, o.reply ())

end RustdeskConsole.Updater
