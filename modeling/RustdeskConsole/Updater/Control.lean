import Mathlib.Data.List.Sort
import Mathlib.Logic.Function.Basic
import Mathlib.Logic.Relation
import RustdeskConsole.Collections.Numeral
import RustdeskConsole.Effects.Embedding
import RustdeskConsole.Updater.Worker

namespace RustdeskConsole.Updater

open Collections Effects

/-- A file of the `jobs` directory: the journal of a job under what it was
accepted with. -/
structure StoredJob where
  idempotencyKey : String
  requestDigest : String
  actorId : String
  planId : String
  createdAt : ℕ
  record : JobRecord

structure CreateJobRequest where
  planId : String
  idempotencyKey : String
  acknowledgeDowntime : Bool
  deriving DecidableEq

structure CreateJobResponse where
  jobId : String
  statusUrl : String
  job : JobView

def StoredJob.jobId (job : StoredJob) : String := job.record.view.jobId

def StoredJob.terminal (job : StoredJob) : Bool := job.record.terminal

def StoredJob.stamp (job : StoredJob) (now : ℕ) : StoredJob :=
  { job with record := job.record.stamp now }

def isHex (c : Char) : Bool :=
  ('0' ≤ c && c ≤ '9') || ('a' ≤ c && c ≤ 'f') || ('A' ≤ c && c ≤ 'F')

/-- The pattern `UUID`. -/
def isUuid (s : String) : Bool :=
  s.toList.length = 36 && s.toList.zipIdx.all fun (c, i) ↦
    if [8, 13, 18, 23].contains i then c = '-'
    else if i = 14 then c = '4'
    else if i = 19 then ['8', '9', 'a', 'b', 'A', 'B'].contains c
    else isHex c

def CreateJobRequest.valid (body : CreateJobRequest) (actorId : String) : Bool :=
  isUuid body.planId && isUuid body.idempotencyKey && body.acknowledgeDowntime &&
    0 < utf16Length actorId && utf16Length actorId ≤ 100

/-- What the control process leaves in the history, newest first. -/
inductive Notice
  | received (body : CreateJobRequest) (actorId : String)
  | stored (job : StoredJob)
  | failed
  | answered (body : CreateJobRequest) (outcome : Except Failure CreateJobResponse)

/-- The host as all processes of the updater find it. -/
structure Host where
  jobs : List StoredJob
  maintenance : Option MaintenanceState
  installation : Installation
  deployed : Component → String
  running : Component → Bool
  history : List Event
  notices : List Notice

/-- The commands of the control process, and those of the worker of some job. -/
inductive HostCommand
  | receive (body : CreateJobRequest) (actorId : String)
  | respond (body : CreateJobRequest) (outcome : Except Failure CreateJobResponse)
  | loadInstallation
  | readdir
  | readJob (jobId : String)
  | readPlan (planId : String)
  | planner (c : Command)
  | now
  | randomUUID
  | writeJob (job : StoredJob)
  | startWorker (jobId : String)
  | workerAlive (jobId : String)
  | worker (jobId : String) (c : Command)

@[reducible] def HostReply : HostCommand → Type
  | .receive _ _ | .respond _ _ => Unit
  | .loadInstallation => Except Failure Installation
  | .readdir => Except Failure (List String)
  | .readJob _ => Except Failure StoredJob
  | .readPlan _ => Except Failure PersistedPlan
  | .planner c | .worker _ c => Reply c
  | .now => ℕ
  | .randomUUID => String
  | .writeJob _ | .startWorker _ => Except Failure Unit
  | .workerAlive _ => Except Failure Bool

/-- What the host decides about one call: beside what a worker's call needs, the
order in which the directory is listed and the contents of a plan file. -/
structure HostChoice where
  call : Choice
  order : List String
  plan : PersistedPlan
  alive : Bool

namespace Host

def notify (h : Host) (notice : Notice) : Host := { h with notices := notice :: h.notices }

def find? (h : Host) (jobId : String) : Option StoredJob := h.jobs.find? (·.jobId = jobId)

/-- The host as the worker of the job finds it. -/
def focus (h : Host) (job : StoredJob) : World :=
  ⟨job.record, h.maintenance, h.installation, h.deployed, h.running, h.history⟩

def unfocus (h : Host) (jobId : String) (w : World) : Host :=
  { h with
    jobs := h.jobs.map fun job ↦ if job.jobId = jobId then { job with record := w.job } else job
    maintenance := w.maintenance
    installation := w.installation
    deployed := w.deployed
    running := w.running
    history := w.history }

/-- A read that the control process makes, which may fail. -/
def read {α : Type} (h : Host) (a : α) (o : Choice) : Host × Option (Except Failure α) :=
  match o.ending with
  | .returns => (h, o.reply a)
  | _ => (h.notify .failed, o.reply a)

def store (h : Host) (job : StoredJob) : Host :=
  notify { h with jobs := h.jobs.filter (·.jobId ≠ job.jobId) ++ [job] } (.stored job)

def writeJob (h : Host) (job : StoredJob) (o : Choice) : Host × Option (Except Failure Unit) :=
  (if o.visible then h.store job else h,
    match o.ending with
    | .returns => some (.ok ())
    | .throws _ => some (.error .journal)
    | .dies => none)

end Host

def HostChoice.listing (o : HostChoice) (h : Host) : List String :=
  if o.order.isPerm (h.jobs.map StoredJob.jobId) then o.order else h.jobs.map StoredJob.jobId

/-- What the planner's commands find out is of the host's choosing. -/
def plannerReply : (c : Command) → Choice → Option (Reply c)
  | .now, o => some o.clock
  | .fingerprint _, o => o.reply o.text
  | .exactManifest _ _, o => o.reply o.text
  | .blockers _, o => some o.blockers
  | _, _ => none

/-- An identifier is never drawn twice. -/
def hostExec : (c : HostCommand) → HostChoice → Host → Host × Option (HostReply c)
  | .receive body actorId, _, h => (h.notify (.received body actorId), some ())
  | .respond body outcome, _, h => (h.notify (.answered body outcome), some ())
  | .loadInstallation, o, h => h.read h.installation o.call
  | .readdir, o, h => h.read (o.listing h) o.call
  | .readJob jobId, o, h => match h.find? jobId with
    | some job => h.read job o.call
    | none => (h.notify .failed,
        some (.error (.update "RESOURCE_NOT_FOUND" "The update resource was not found.")))
  | .readPlan _, o, h => h.read o.plan o.call
  | .planner c, o, h => (h, plannerReply c o.call)
  | .now, o, h => (h, some o.call.clock)
  | .randomUUID, o, h => (h, if (h.find? o.call.text).isSome then none else some o.call.text)
  | .writeJob job, o, h => h.writeJob job o.call
  | .startWorker _, o, h => (h, o.call.reply ())
  | .workerAlive _, o, h => (h, o.call.reply o.alive)
  | .worker jobId c, o, h => match h.find? jobId with
    | some job => (exec c o.call (h.focus job)).map (h.unfocus jobId) id
    | none => (h, none)

/-- A program of the worker's modules, run for a job. -/
def forJob {α : Type} (jobId : String) (p : Prog Command Reply α) : Prog HostCommand HostReply α :=
  p.translate (.worker jobId) fun _ ↦ id

/-- The control process keeps nothing in its memory; the planner it calls is the
one the worker calls. -/
abbrev Control := Process HostCommand HostReply JobRecord Failure

namespace UpdateControl

def planner {α : Type} (p : Worker α) : Control α :=
  ExceptT.mk fun s ↦ (p.start s).translate .planner fun _ ↦ id

def assert (condition : Bool) (code message : String) : Control Unit :=
  if condition then pure () else throw (.update code message)

def reload : Control Installation := invoke .loadInstallation fun reply ↦ reply
def readdir : Control (List String) := invoke .readdir fun reply ↦ reply
def readJob (jobId : String) : Control StoredJob := invoke (.readJob jobId) fun reply ↦ reply
def readPlan (planId : String) : Control PersistedPlan := invoke (.readPlan planId) fun reply ↦ reply
def now : Control ℕ := invoke .now .ok
def randomUUID : Control String := invoke .randomUUID .ok

def startWorker (jobId : String) : Control Unit := invoke (.startWorker jobId) fun reply ↦ reply

def workerAlive (jobId : String) : Control Bool := invoke (.workerAlive jobId) fun reply ↦ reply

/-- `UpdateStore.saveJob`. -/
def saveJob (job : StoredJob) : Control StoredJob := do
  let updatedAt ← now
  invoke (.writeJob (job.stamp updatedAt)) fun reply ↦ reply
  pure (job.stamp updatedAt)

def readJobs : List String → Control (List StoredJob)
  | [] => pure []
  | jobId :: jobIds => do
    let job ← readJob jobId
    let jobs ← readJobs jobIds
    pure (job :: jobs)

def newestFirst (jobs : List StoredJob) : List StoredJob :=
  jobs.insertionSort fun a b ↦ b.createdAt ≤ a.createdAt

/-- `UpdateStore.jobs`. The files are read one by one while workers write. -/
def jobs : Control (List StoredJob) := do
  let jobIds ← readdir
  let jobs ← readJobs jobIds
  pure (newestFirst jobs)

/-- `UpdateStore.current`. -/
def current : Control (Option StoredJob) := do
  let jobs ← jobs
  let active := jobs.filter (!·.terminal)
  assert (active.length ≤ 1) "OWNERSHIP_UNCERTAIN"
    "Multiple unfinished jobs require host recovery."
  pure (active.head?.or jobs.head?)

def response (job : StoredJob) : CreateJobResponse :=
  ⟨job.jobId, "/api/system-update/jobs/" ++ job.jobId, job.record.view⟩

def queued (body : CreateJobRequest) (actorId requestDigest : String) (installation : Installation)
    (plan : PersistedPlan) (createdAt : ℕ) (jobId : String) : StoredJob where
  idempotencyKey := body.idempotencyKey
  requestDigest := requestDigest
  actorId := actorId
  planId := body.planId
  createdAt := createdAt
  record :=
    { view :=
        { jobId := jobId
          status := .queued
          phase := .preparing
          updatedAt := createdAt
          finishedAt := none
          resultCode := none
          safeMessage := "The update request is durably accepted."
          recoveryGuidance := none }
      plan := plan
      originalInstallation := installation
      snapshot := none
      decision := none
      operations := fun _ ↦ none }

/-- An accepted job keeps its identity even when its worker does not start. -/
def create (body : CreateJobRequest) (actorId requestDigest : String)
    (installation : Installation) : Control CreateJobResponse := do
  let plan ← readPlan body.planId
  planner (revalidate installation plan false)
  let createdAt ← now
  let jobId ← randomUUID
  let job ← saveJob (queued body actorId requestDigest installation plan createdAt jobId)
  tryCatch (startWorker jobId) fun _ ↦ pure ()
  pure (response job)

def repeated (duplicate : StoredJob) (requestDigest : String) : Control CreateJobResponse := do
  assert (duplicate.requestDigest = requestDigest) "IDEMPOTENCY_CONFLICT"
    "This idempotency key belongs to a different request."
  pure (response duplicate)

variable (digest : String → Bool → String)

/-- `UpdateControl.accept`; `digest` is taken of the plan and the acknowledgement. -/
def accept (body : CreateJobRequest) (actorId : String) : Control CreateJobResponse := do
  let installation ← reload
  assert (body.valid actorId) "INVALID_REQUEST" "The update request is invalid."
  let requestDigest := digest body.planId body.acknowledgeDowntime
  let jobs ← jobs
  match jobs.find? (·.idempotencyKey = body.idempotencyKey) with
  | some duplicate => repeated duplicate requestDigest
  | none =>
    assert (jobs.all StoredJob.terminal) "JOB_ACTIVE"
      "Another update or recovery is already active."
    create body actorId requestDigest installation

/-- A request and its answer. -/
def handle (body : CreateJobRequest) (actorId : String) : Control Unit := do
  invoke (.receive body actorId) .ok
  let outcome ← tryCatch (.ok <$> accept digest body actorId) fun error ↦ pure (.error error)
  invoke (.respond body outcome) .ok

def reconcile : Control Unit := do
  let _ ← reload
  match ← current with
  | none => pure ()
  | some job =>
    if job.terminal || job.record.view.status = .recoveryRequired then pure ()
    else if ← workerAlive job.jobId then pure ()
    else startWorker job.jobId

section Serialized

open Function Relation

/-- A promise of the chain: the resolved one it starts with, or the result of an operation. -/
inductive Link
  | resolved
  | result (operation : ℕ)
  deriving DecidableEq

/-- The operations that were passed to `serialized`, in their order: what each of them
waits for, and which have begun and which have ended. -/
structure Chain where
  pending : Link
  operations : ℕ
  awaits : ℕ → Link
  begun : ℕ → Bool
  ended : ℕ → Bool

def Chain.start : Chain := ⟨.resolved, 0, fun _ ↦ .resolved, fun _ ↦ false, fun _ ↦ false⟩

/-- The operation goes to `this.pending.then` and its result becomes `pending`,
whether it fails or not. -/
def serialized (chain : Chain) : Chain :=
  { chain with
    pending := .result chain.operations
    operations := chain.operations + 1
    awaits := update chain.awaits chain.operations chain.pending }

/-- An operation begins when what it waits for has settled. -/
inductive Chain.Step : Chain → Chain → Prop
  | pass (chain : Chain) : Step chain (serialized chain)
  | begins (chain : Chain) (n : ℕ) : n < chain.operations →
    (∀ m, chain.awaits n = .result m → chain.ended m = true) →
    Step chain { chain with begun := update chain.begun n true }
  | ends (chain : Chain) (n : ℕ) : chain.begun n = true →
    Step chain { chain with ended := update chain.ended n true }

/-- The result of the operation before this one. -/
def before : ℕ → Link
  | 0 => .resolved
  | n + 1 => .result n

structure Chain.Linked (chain : Chain) : Prop where
  pending : chain.pending = before chain.operations
  awaits : ∀ n < chain.operations, chain.awaits n = before n
  begun : ∀ n, chain.begun n = true → n < chain.operations ∧ ∀ m < n, chain.ended m = true
  ended : ∀ n, chain.ended n = true → chain.begun n = true

variable {chain chain' : Chain}

theorem Chain.Linked.step (h : chain.Linked) (hs : chain.Step chain') : chain'.Linked := by
  cases hs with
  | pass =>
    refine ⟨rfl, fun n hn ↦ ?_, fun n hb ↦ ?_, h.ended⟩
    · by_cases heq : n = chain.operations
      · subst heq
        exact (update_self ..).trans h.pending
      · have hlt : n < chain.operations + 1 := hn
        exact (update_of_ne heq ..).trans (h.awaits n (by omega))
    · exact ⟨Nat.lt_succ_of_lt (h.begun n hb).1, (h.begun n hb).2⟩
  | begins n hn hw =>
    refine ⟨h.pending, h.awaits, fun m hb ↦ ?_, fun m he ↦ ?_⟩
    · by_cases heq : m = n
      · subst heq
        refine ⟨hn, fun k hk ↦ ?_⟩
        cases m with
        | zero => omega
        | succ m =>
          have hm := hw m (h.awaits (m + 1) hn)
          rcases Nat.lt_succ_iff_lt_or_eq.mp hk with hlt | rfl
          · exact (h.begun m (h.ended m hm)).2 k hlt
          · exact hm
      · exact h.begun m ((update_of_ne heq ..).symm.trans hb)
    · by_cases heq : m = n
      · exact heq ▸ update_self ..
      · exact (update_of_ne heq ..).trans (h.ended m he)
  | ends n hn =>
    refine ⟨h.pending, h.awaits, fun m hb ↦ ⟨(h.begun m hb).1, fun k hk ↦ ?_⟩, fun m he ↦ ?_⟩
    · by_cases heq : k = n
      · exact heq ▸ update_self ..
      · exact (update_of_ne heq ..).trans ((h.begun m hb).2 k hk)
    · by_cases heq : m = n
      · exact heq ▸ hn
      · exact h.ended m ((update_of_ne heq ..).symm.trans he)

theorem Chain.Linked.run (hr : ReflTransGen Chain.Step .start chain) : chain.Linked := by
  induction hr with
  | refl => exact ⟨rfl, nofun, nofun, nofun⟩
  | tail _ hs ih => exact ih.step hs

/-- Of the operations that were passed to `serialized`, one runs at a time. -/
theorem serialized_alone (hr : ReflTransGen Chain.Step .start chain) {m n : ℕ}
    (hm : chain.begun m = true) (hm' : chain.ended m = false) (hn : chain.begun n = true)
    (hn' : chain.ended n = false) : m = n := by
  have hlinked := Chain.Linked.run hr
  rcases Nat.lt_trichotomy m n with hlt | heq | hlt
  · rw [(hlinked.begun n hn).2 m hlt] at hm'
    cases hm'
  · exact heq
  · rw [(hlinked.begun m hm).2 n hlt] at hn'
    cases hn'

end Serialized

end UpdateControl

/-- Whoever holds `control.lock`, and whoever holds `execution.lock`. -/
inductive Party
  | control
  | worker
  deriving DecidableEq

/-- The whole updater. The control process does one thing at a time, as
`serialized_alone` says of its chain; a worker or `recover` has found the file of
its job before it takes the lock. -/
def host (digest : String → Bool → String) :
    Machine Party HostCommand HostReply HostChoice Host where
  exec _ := hostExec
  admits
    | .control, _, p => ∃ memory, p = (fun _ ↦ ()) <$> UpdateControl.reconcile.start memory ∨
        ∃ body actorId, p = (fun _ ↦ ()) <$> (UpdateControl.handle digest body actorId).start memory
    | .worker, h, p => ∃ jobId memory, (h.find? jobId).isSome ∧ ∃ main ∈ [workerMain, recoverMain],
        p = (fun _ ↦ ()) <$> forJob jobId (main.start memory)

end RustdeskConsole.Updater
