import Mathlib.Data.List.Basic
import Mathlib.Logic.Function.Basic
import RustdeskConsole.Collections.OrderedMap
import RustdeskConsole.Effects.Machine

namespace RustdeskConsole.ServerBans

open Effects Function

inductive Failure
  | unavailable (message : String)
  | badGateway (message : String)
  | notFound (message : String)
  | error (message : String)
  deriving DecidableEq

/-- `url` is the management API, if there is one. -/
structure RuntimeConfig where
  url : Option String
  nodeId : String

/-- A field of a reply: `none` is no array, and in one it is no string. -/
abbrev Field := Option (List (Option String))

def asArray (value : Field) : List (Option String) := value.getD []

def strings (value : Field) : List String := (asArray value).filterMap id

/-- The ban list at the server. -/
structure Bans where
  deviceIds : Field
  ips : Field
  deriving DecidableEq

structure ServerBansDto where
  deviceIds : List String
  ips : List String
  deriving DecidableEq

def ServerBansDto.bans (dto : ServerBansDto) : Bans :=
  ⟨some (dto.deviceIds.map some), some (dto.ips.map some)⟩

structure Changes where
  add : Option (List String)
  remove : Option (List String)
  deriving DecidableEq

inductive Request
  | saveBans (actor nodeId : String) (dto : ServerBansDto)
  | syncDeviceBans (actor : String) (changes : Changes)
  deriving DecidableEq

/-- A write of the ban list that has been queued. -/
inductive Job
  | save (actor nodeId : String) (dto : ServerBansDto)
  | sync (actor : String) (add remove : List String)
  deriving DecidableEq

/-- `Set.add` keeps the order of insertion. -/
def addId (ids : List String) (id : String) : List String := if id ∈ ids then ids else ids ++ [id]

def mergeIds (ids add remove : List String) : List String :=
  remove.foldl List.erase (add.foldl addId ids.eraseDups)

/-- The body that a merge puts in place of the list that it has read. -/
def merged (current : Bans) (add remove : List String) : ServerBansDto :=
  ⟨mergeIds (strings current.deviceIds) add remove, strings current.ips⟩

/-- The ids of the list and behind them those that are added, each of them once, without
those that are removed. The addresses stay. -/
def Bans.change (bans : Bans) (add remove : List String) : Bans where
  deviceIds := some (((strings bans.deviceIds ++ add).eraseDups.filter (· ∉ remove)).map some)
  ips := some ((strings bans.ips).map some)

/-- What a write is meant to do to the list. -/
def Job.apply : Job → Bans → Bans
  | .save _ _ dto, _ => dto.bans
  | .sync _ add remove, bans => bans.change add remove

section Merge

variable {ids add remove : List String} {bans : Bans} {id : String}

theorem foldl_addId : add.foldl addId ids.eraseDups = (ids ++ add).eraseDups := by
  induction add generalizing ids with
  | nil => rw [List.append_nil, List.foldl_nil]
  | cons id add ih =>
    have hadd : addId ids.eraseDups id = (ids ++ [id]).eraseDups := by
      rw [addId, List.eraseDups_append]
      by_cases hid : id ∈ ids
      · simp [hid, List.removeAll]
      · simp [hid, List.removeAll, List.eraseDups_cons]
    rw [List.foldl_cons, hadd, ih, List.append_assoc, List.singleton_append]

theorem mergeIds_eq :
    mergeIds ids add remove = (ids ++ add).eraseDups.filter (· ∉ remove) := by
  rw [mergeIds, foldl_addId, ← List.diff_eq_foldl]
  exact (Collections.nodup_eraseDups _).sdiff_eq_filter

/-- The body that a merge puts changes the list that it has read as it is meant to. -/
theorem merged_bans : (merged bans add remove).bans = bans.change add remove := by
  rw [merged, mergeIds_eq]
  rfl

/-- An id is in the list if it was there or is added, and is not removed. -/
theorem mem_change : id ∈ strings (bans.change add remove).deviceIds ↔
    (id ∈ strings bans.deviceIds ∨ id ∈ add) ∧ id ∉ remove := by
  simp [Bans.change, strings, asArray]

end Merge

inductive Reason
  | notConfigured
  | forbidden
  | upstreamError
  deriving DecidableEq

structure DeviceBanSyncResult where
  enforced : Bool
  reason : Option Reason
  detail : Option Failure
  deriving DecidableEq

/-- What the caller of a write is told. -/
inductive Report
  | saved (view : ServerBansDto)
  | threw (failure : Failure)
  | synced (result : DeviceBanSyncResult)
  deriving DecidableEq

def Report.succeeded : Report → Bool
  | .saved _ => true
  | .threw _ => false
  | .synced result => result.enforced

/-- A promise of the chain is resolved from the beginning, or once the write with this
ticket has settled. -/
inductive Link
  | resolved
  | settled (ticket : ℕ)
  deriving DecidableEq

/-- `jobs` are the writes in the order in which they were queued, each of which runs after
the link that it `awaits`. -/
structure World where
  bans : Bans
  bansQueue : Link
  jobs : List Job
  awaits : ℕ → Link
  started : ℕ → Bool
  reports : ℕ → Option Report

structure Choice where
  outcome : Except Failure Unit
  found : Bool

/-- A request runs on its own until it queues a write, which has a turn of its
own. -/
inductive Task
  | request (id : ℕ) (request : Request)
  | work (ticket : ℕ)
  deriving DecidableEq

namespace World

variable (w : World)

/-- The write runs when what is the queue now has settled, and is the queue from now on. -/
def enqueueBansWrite (job : Job) : World :=
  { w with
    jobs := w.jobs ++ [job]
    awaits := update w.awaits w.jobs.length w.bansQueue
    bansQueue := .settled w.jobs.length }

def start (ticket : ℕ) : World := { w with started := update w.started ticket true }

def settle (ticket : ℕ) (report : Report) : World :=
  { w with reports := update w.reports ticket (some report) }

def settled : Link → Bool
  | .resolved => true
  | .settled ticket => (w.reports ticket).isSome

/-- The turn of a write comes when what it awaits has settled. -/
def due (ticket : ℕ) : Bool := !w.started ticket && w.settled (w.awaits ticket)

end World

inductive Command
  | runtime
  | findRelay (nodeId : String)
  | enqueueBansWrite (job : Job)
  | start
  | settle (report : Report)
  | getBans
  | putBans (body : ServerBansDto)
  | recordDenied (actor nodeId action reason : String)
  | record (actor nodeId action : String)

@[reducible] def Reply : Command → Type
  | .runtime => Except Failure RuntimeConfig
  | .findRelay _ => Bool
  | .getBans => Except Failure Bans
  | .putBans _ | .recordDenied .. | .record .. => Except Failure Unit
  | .enqueueBansWrite _ | .start | .settle _ => Unit

section Exec

variable (config : RuntimeConfig)

/-- Only a write in its turn starts and settles. A request to the server that
fails has no effect. -/
def exec : Task → (c : Command) → Choice → World → World × Option (Reply c)
  | _, .runtime, o, w => (w, some (o.outcome.map fun _ ↦ config))
  | _, .findRelay _, o, w => (w, some o.found)
  | _, .enqueueBansWrite job, _, w => (w.enqueueBansWrite job, some ())
  | .work ticket, .start, _, w => (w.start ticket, some ())
  | .work ticket, .settle report, _, w => (w.settle ticket report, some ())
  | .request .., .start, _, w => (w, some ())
  | .request .., .settle _, _, w => (w, some ())
  | _, .getBans, o, w => (w, some (o.outcome.map fun _ ↦ w.bans))
  | _, .putBans body, o, w =>
    match o.outcome with
    | .ok () => ({ w with bans := body.bans }, some (.ok ()))
    | .error failure => (w, some (.error failure))
  | _, .recordDenied .., o, w => (w, some o.outcome)
  | _, .record .., o, w => (w, some o.outcome)

end Exec

abbrev Handler := Process Command Reply Unit Failure

def ask (c : Command) : Handler (Reply c) := invoke c .ok

/-- The command throws what it replies as a failure. -/
def attempt {α : Type} (c : Command) (h : Reply c = Except Failure α) : Handler α :=
  invoke c fun reply ↦ h ▸ reply

section Requests

/-- `fetchJson` of one request to the server. -/
def fetchJson {α : Type} (config : RuntimeConfig) (request : Handler α) : Handler α :=
  if config.url.isNone then throw (.unavailable "Server management is not configured")
  else request

def requireNode (config : RuntimeConfig) (nodeId : String) : Handler Unit := do
  if config.url.isNone then throw (.notFound "Server node not found")
  else if nodeId = config.nodeId then pure ()
  else
    let found ← ask (.findRelay nodeId)
    if found then pure () else throw (.notFound "Server node not found")

def audited {α : Type} (actor nodeId action : String) (work : Handler α) : Handler α := do
  let result ← tryCatch work fun error ↦ do
    attempt (.recordDenied actor nodeId action "Server management operation failed") rfl
    throw error
  tryCatch (attempt (.record actor nodeId action) rfl) fun _ ↦ pure ()
  pure result

end Requests

section Jobs

def saveJob (config : RuntimeConfig) (actor nodeId : String) (dto : ServerBansDto) :
    Handler ServerBansDto :=
  audited actor nodeId "PUT /v1/bans" do
    fetchJson config (attempt (.putBans dto) rfl)
    pure dto

def syncJob (actor : String) (add remove : List String) : Handler DeviceBanSyncResult :=
  tryCatch
    (do
      let config ← attempt .runtime rfl
      if config.url.isNone then pure ⟨false, some .notConfigured, none⟩
      else
        let current ← fetchJson config (attempt .getBans rfl)
        audited actor config.nodeId "PUT /v1/bans" do
          fetchJson config (attempt (.putBans (merged current add remove)) rfl)
          pure ⟨true, none, none⟩)
    fun error ↦ pure ⟨false, some .upstreamError, some error⟩

/-- What a queued write does in its turn. `config` is the one it was queued with. -/
def perform (config : RuntimeConfig) : Job → Handler Report
  | .save actor nodeId dto =>
    tryCatch (Report.saved <$> saveJob config actor nodeId dto) fun error ↦ pure (.threw error)
  | .sync actor add remove => Report.synced <$> syncJob actor add remove

def saveBans (actor nodeId : String) (dto : ServerBansDto) : Handler Unit := do
  let config ← attempt .runtime rfl
  requireNode config nodeId
  ask (.enqueueBansWrite (.save actor nodeId dto))

def syncDeviceBans (actor : String) (changes : Changes) : Handler Unit :=
  let add := (changes.add.getD []).eraseDups
  let remove := (changes.remove.getD []).eraseDups
  if add.isEmpty && remove.isEmpty then pure ()
  else ask (.enqueueBansWrite (.sync actor add remove))

end Jobs

section Machine

def serve : Request → Handler Unit
  | .saveBans actor nodeId dto => saveBans actor nodeId dto
  | .syncDeviceBans actor changes => syncDeviceBans actor changes

/-- One turn of the chain that `enqueueBansWrite` builds. -/
def turn (config : RuntimeConfig) (job : Job) : Handler Unit := do
  ask .start
  let report ← perform config job
  ask (.settle report)

def program (handler : Handler Unit) : Prog Command Reply Unit :=
  handler.start () >>= fun _ ↦ .done ()

/-- Any number of requests at once, with an upstream configuration that does not
change. -/
def machine (config : RuntimeConfig) : Machine Task Command Reply Choice World where
  exec := exec config
  admits
    | .request _ request, _, p => p = program (serve request)
    | .work ticket, w, p => w.due ticket = true ∧
        ∃ job, w.jobs[ticket]? = some job ∧ p = program (turn config job)

end Machine

end RustdeskConsole.ServerBans
