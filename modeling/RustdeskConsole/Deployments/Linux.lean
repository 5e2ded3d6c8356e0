import RustdeskConsole.Effects.Logic
import RustdeskConsole.Updater.Contracts

namespace RustdeskConsole.Deployments

open Effects Function
open Updater (Component)

/-- A failed call of the system, of which `missing` holds or not, or `assert`. -/
inductive Failure
  | missing
  | unknown
  | update (code message : String)
  deriving DecidableEq

/-- What is read of a JSON file that may be missing or be none. -/
inductive Document (α : Type)
  | missing
  | broken
  | holds (a : α)
  deriving DecidableEq

def Document.read {α : Type} : Document α → Except Failure α
  | .missing => .error .missing
  | .broken => .error .unknown
  | .holds a => .ok a

/-- `extractArchive`, what it makes of an archive where it succeeds, and what is
read of it: version and commit in `release-metadata.json`, and whether the
executable of a component is there. -/
structure Bundles (τ : Type) where
  digest : List UInt8 → String
  extractArchive : List UInt8 → Option τ
  metadata : τ → Document (String × String)
  executable : Component → τ → Option Bool

/-- A release on the disk, with `.updater-integrity.json`. -/
structure Directory (τ : Type) where
  tree : τ
  integrity : Document String
  deriving DecidableEq

structure Target where
  version : String
  sourceCommit : String
  url : String
  sha256 : String
  size : ℕ
  deriving DecidableEq

/-- A component of the view of a plan. -/
structure Change where
  component : Component
  update : Bool
  target : String
  deriving DecidableEq

structure Plan where
  components : List Change
  targets : Component → Target

/-- The versions of a recorded installation. -/
structure Installation where
  current : Component → String

inductive Link
  | backend
  | web
  | updater
  deriving DecidableEq

def Link.component : Link → Component
  | .backend | .updater => .backend
  | .web => .web

/-- The directory of a release: its component and its version. -/
abbrev Release := Component × String

/-- A release and what is appended to the name of its directory. -/
abbrev Staging := Release × String

inductive Place
  | release (release : Release)
  | staging (staging : Staging)
  deriving DecidableEq

inductive Request
  | prepare (installation : Installation) (plan : Plan)
  | switchApplications (plan : Plan)
  | updateHelper (plan : Plan)
  | restoreDeployment (original : Installation)

inductive Command
  | realpath (link : Link)
  | systemctl (operation : String)
  | access (release : Release)
  | readMetadata (place : Place)
  | readIntegrity (release : Release)
  | download (url : String)
  | randomUUID
  | mkdir (staging : Staging)
  | extractArchive (archive : List UInt8) (staging : Staging)
  | lstat (component : Component) (staging : Staging)
  | writeIntegrity (staging : Staging) (sha256 : String)
  | publish (staging : Staging)
  | remove (staging : Staging)
  | syncDirectory
  | symlink (release : Release) (link : Link) (uuid : String)
  | rename (link : Link) (uuid : String)
  | writeInstallation (installation : Installation)
  | verifyHelper
  | return

@[reducible] def Reply : Command → Type
  | .realpath _ => Except Failure Release
  | .readMetadata _ => Except Failure (String × String)
  | .readIntegrity _ => Except Failure String
  | .download _ => Except Failure (List UInt8)
  | .randomUUID => Except Failure String
  | .lstat .. => Except Failure Bool
  | _ => Except Failure Unit

/-- A call fails or not, what a failed one leaves of a directory, and what comes
from outside. -/
structure Choice (τ : Type) where
  fails : Bool
  left : Directory τ
  bytes : List UInt8
  uuid : String

/-- A staging directory belongs to the call that made it. -/
structure World (τ : Type) where
  releases : Release → Option (Directory τ)
  stagings : Staging → Option (ℕ × Directory τ)
  links : Link → Option Release
  temporary : Link × String → Option Release
  recorded : Option Installation
  returned : List ℕ

variable {τ : Type}

def World.reply (w : World τ) (o : Choice τ) (w' : World τ) :
    World τ × Option (Except Failure Unit) :=
  if o.fails then (w, some (.error .unknown)) else (w', some (.ok ()))

def World.directory (w : World τ) : Place → Option (Directory τ)
  | .release release => w.releases release
  | .staging staging => (w.stagings staging).map Prod.snd

/-- What is read, when the call does not fail. -/
def Choice.read {α : Type} (o : Choice τ) (found : Option (Except Failure α)) : Except Failure α :=
  if o.fails then .error .unknown else found.getD (.error .missing)

/-- An archive that is not extracted leaves anything in the directory, and so does
what is written to a file. -/
def exec (b : Bundles τ) (id : ℕ) :
    (c : Command) → Choice τ → World τ → World τ × Option (Reply c)
  | .realpath link, o, w =>
    (w, some (o.read ((w.links link).bind fun release ↦ (w.releases release).map fun _ ↦
      .ok release)))
  | .systemctl _, o, w => w.reply o w
  | .access release, o, w => (w, some (o.read ((w.releases release).map fun _ ↦ .ok ())))
  | .readMetadata place, o, w =>
    (w, some (o.read ((w.directory place).map fun directory ↦ (b.metadata directory.tree).read)))
  | .readIntegrity release, o, w =>
    (w, some (o.read ((w.releases release).map fun directory ↦ directory.integrity.read)))
  | .download _, o, w => (w, some (if o.fails then .error .unknown else .ok o.bytes))
  | .randomUUID, o, w => (w, some (.ok o.uuid))
  | .mkdir staging, o, w =>
    if o.fails || (w.stagings staging).isSome then (w, some (.error .unknown))
    else
      ({ w with stagings := update w.stagings staging (some (id, o.left)) }, some (.ok ()))
  | .extractArchive archive staging, o, w =>
    match b.extractArchive archive with
    | some tree =>
      if o.fails then
        ({ w with stagings := update w.stagings staging (some (id, o.left)) },
          some (.error .unknown))
      else
        ({ w with stagings := update w.stagings staging (some (id, ⟨tree, o.left.integrity⟩)) },
          some (.ok ()))
    | none =>
      ({ w with stagings := update w.stagings staging (some (id, o.left)) },
        some (.error .unknown))
  | .lstat component staging, o, w =>
    (w, some (o.read ((w.stagings staging).bind fun directory ↦
      (b.executable component directory.2.tree).map .ok)))
  | .writeIntegrity staging sha256, o, w =>
    match w.stagings staging with
    | none => (w, some (.error .missing))
    | some (owner, directory) =>
      if o.fails then
        ({ w with
          stagings := update w.stagings staging
            (some (owner, ⟨directory.tree, o.left.integrity⟩)) }, some (.error .unknown))
      else
        ({ w with
          stagings := update w.stagings staging
            (some (owner, ⟨directory.tree, .holds sha256⟩)) }, some (.ok ()))
  | .publish staging, o, w =>
    match w.stagings staging with
    | none => (w, some (.error .missing))
    | some (_, directory) =>
      if o.fails || (w.releases staging.1).isSome then (w, some (.error .unknown))
      else
        ({ w with
          releases := update w.releases staging.1 (some directory)
          stagings := update w.stagings staging none }, some (.ok ()))
  | .remove staging, o, w => w.reply o { w with stagings := update w.stagings staging none }
  | .syncDirectory, o, w => w.reply o w
  | .symlink release link uuid, o, w =>
    if o.fails || (w.temporary (link, uuid)).isSome then (w, some (.error .unknown))
    else
      ({ w with temporary := update w.temporary (link, uuid) (some release) }, some (.ok ()))
  | .rename link uuid, o, w =>
    match w.temporary (link, uuid) with
    | none => (w, some (.error .missing))
    | some release =>
      w.reply o { w with
        links := update w.links link (some release)
        temporary := update w.temporary (link, uuid) none }
  | .writeInstallation installation, o, w => w.reply o { w with recorded := some installation }
  | .verifyHelper, o, w => w.reply o w
  | .return, _, w => ({ w with returned := id :: w.returned }, some (.ok ()))

abbrev Handler := Process Command Reply Unit Failure

/-- The command throws what it replies as a failure. -/
def attempt {α : Type} (c : Command) (h : Reply c = Except Failure α) : Handler α :=
  invoke c fun reply ↦ h ▸ reply

def assert (condition : Bool) (code message : String) : Handler Unit :=
  if condition then pure () else throw (.update code message)

namespace LinuxDeployment

variable (b : Bundles τ)

def metadata (place : Place) (version sourceCommit : String) : Handler Unit := do
  let found ← attempt (.readMetadata place) rfl
  assert (found = (version, sourceCommit)) "BUNDLE_VERSION_MISMATCH"
    "The complete release bundle has inconsistent build metadata."

/-- The configuration files and the result are left out: nothing here reads them. -/
def fingerprint (installation : Installation) : Handler Unit := do
  let backend ← attempt (.realpath .backend) rfl
  let web ← attempt (.realpath .web) rfl
  let updater ← attempt (.realpath .updater) rfl
  assert (backend = (.backend, installation.current .backend)) "INSTALLATION_DRIFT"
    "The current release link changed."
  assert (web = (.web, installation.current .web)) "INSTALLATION_DRIFT"
    "The current release link changed."
  assert (updater = backend) "INSTALLATION_DRIFT"
    "The updater release does not match the recorded backend."
  attempt (.systemctl "cat") rfl

/-- Whether the release is there already. -/
def prepared (release : Release) (target : Target) : Handler Bool :=
  tryCatch
    (do
      attempt (.access release) rfl
      metadata (.release release) target.version target.sourceCommit
      let proof ← attempt (.readIntegrity release) rfl
      assert (proof = target.sha256) "BUNDLE_DIGEST_MISMATCH"
        "An existing release directory has an unverified digest."
      pure true)
    fun failure ↦ if failure = .missing then pure false else throw failure

/-- What is done to the staging directory until it is the release. -/
def stage (component : Component) (target : Target) (archive : List UInt8) (staging : Staging) :
    Handler Unit := do
  attempt (.extractArchive archive staging) rfl
  metadata (.staging staging) target.version target.sourceCommit
  let info ← attempt (.lstat component staging) rfl
  assert info "BUNDLE_INCOMPLETE" "The complete release executable is missing."
  attempt (.writeIntegrity staging target.sha256) rfl
  attempt (.publish staging) rfl

def prepareOne (component : Component) (target : Target) : Handler Unit := do
  let release := (component, target.version)
  let there ← prepared release target
  if there then pure ()
  else do
    assert (target.size ≤ 512 * 1024 * 1024) "ARTIFACT_TOO_LARGE"
      "The release bundle exceeds the supported size."
    let archive ← attempt (.download target.url) rfl
    assert (archive.length = target.size && b.digest archive = target.sha256)
      "ARTIFACT_DIGEST_MISMATCH"
      "The release archive did not match its official integrity metadata."
    let uuid ← attempt .randomUUID rfl
    let staging := (release, uuid)
    attempt (.mkdir staging) rfl
    tryCatch (stage component target archive staging) fun failure ↦ do
      tryCatch (attempt (.remove staging) rfl) fun _ ↦ pure ()
      throw failure
    attempt .syncDirectory rfl

def prepare (installation : Installation) (plan : Plan) : Handler Unit := do
  fingerprint installation
  (plan.components.filter Change.update).forM fun change ↦
    prepareOne b change.component (plan.targets change.component)

def link (link : Link) (release : Release) : Handler Unit := do
  let uuid ← attempt .randomUUID rfl
  attempt (.symlink release link uuid) rfl
  attempt (.rename link uuid) rfl
  attempt .syncDirectory rfl

def applicationLink : Component → Link
  | .backend => .backend
  | .web => .web

def switchApplications (plan : Plan) : Handler Unit :=
  (plan.components.filter Change.update).forM fun change ↦
    link (applicationLink change.component) (change.component, change.target)

def updateHelper (plan : Plan) : Handler Unit := do
  if plan.components.any fun change ↦ change.component = .backend && change.update then
    link .updater (.backend, (plan.targets .backend).version)
    attempt (.systemctl "restart") rfl
  attempt .verifyHelper rfl

def restoreDeployment (original : Installation) : Handler Unit := do
  link .backend (.backend, original.current .backend)
  link .web (.web, original.current .web)
  link .updater (.backend, original.current .backend)
  attempt (.writeInstallation original) rfl
  attempt (.systemctl "restart") rfl
  attempt .verifyHelper rfl

end LinuxDeployment

open LinuxDeployment

def serve (b : Bundles τ) : Request → Handler Unit
  | .prepare installation plan => prepare b installation plan
  | .switchApplications plan => switchApplications plan
  | .updateHelper plan => updateHelper plan
  | .restoreDeployment original => restoreDeployment original

def handler (b : Bundles τ) (request : Request) : Prog Command Reply Unit :=
  (do
    serve b request
    attempt .return rfl : Handler Unit).start () >>= fun _ ↦ .done ()

/-- The targets of the view are those of the plan, as the planner has it. -/
def Plan.Consistent (plan : Plan) : Prop :=
  ∀ change ∈ plan.components, change.update = true →
    change.target = (plan.targets change.component).version

/-- What the worker sees to: the plan of its job was prepared before, on the
installation that is restored. -/
def Ready (calls : ℕ → Request) (w : World τ) : Request → Prop
  | .prepare .. => True
  | .switchApplications plan | .updateHelper plan =>
    plan.Consistent ∧ ∃ earlier ∈ w.returned, ∃ installation,
      calls earlier = .prepare installation plan
  | .restoreDeployment original => ∃ earlier ∈ w.returned, ∃ plan,
      calls earlier = .prepare original plan

/-- Any number of calls at once. -/
def machine (b : Bundles τ) (calls : ℕ → Request) :
    Machine ℕ Command Reply (Choice τ) (World τ) where
  exec := exec b
  admits id _ p := p = handler b (calls id)

/-- The calls as the worker makes them: a switch, an update of the helper and a restoration
start only after the preparation they rest on has returned. -/
def workerMachine (b : Bundles τ) (calls : ℕ → Request) :
    Machine ℕ Command Reply (Choice τ) (World τ) :=
  { machine b calls with
    admits := fun id w p ↦ Ready calls w (calls id) ∧ (machine b calls).admits id w p }

end RustdeskConsole.Deployments
