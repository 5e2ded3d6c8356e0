import RustdeskConsole.Devices.Service
import RustdeskConsole.Effects.Machine

namespace RustdeskConsole.Batches

open Collections Effects Function
open Rbac (PermissionScope)
open Devices (Failure DeviceTombstone truthy)

inductive PeerStatus
  | disabled
  | active
  deriving DecidableEq

/-- A device; `uuid` is its primary key. -/
structure Peer where
  uuid : String
  id : String
  userGuid : Option String
  deviceGroupGuid : Option String
  strategyGuid : Option String
  note : Option String
  status : PeerStatus
  deriving DecidableEq

/-- The columns that an update sets. -/
structure PeerUpdate where
  userGuid : Option (Option String)
  deviceGroupGuid : Option (Option String)
  strategyGuid : Option (Option String)
  note : Option (Option String)
  status : Option PeerStatus
  deriving DecidableEq

def PeerUpdate.isEmpty (data : PeerUpdate) : Bool := data = ⟨none, none, none, none, none⟩

def PeerUpdate.apply (data : PeerUpdate) (row : Peer) : Peer :=
  { row with
    userGuid := data.userGuid.getD row.userGuid
    deviceGroupGuid := data.deviceGroupGuid.getD row.deviceGroupGuid
    strategyGuid := data.strategyGuid.getD row.strategyGuid
    note := data.note.getD row.note
    status := data.status.getD row.status }

structure UpdateDeviceDto where
  userName : Option (Option String)
  deviceGroupName : Option (Option String)
  strategyName : Option (Option String)
  note : Option (Option String)
  deriving DecidableEq

/-- The batch operations, and what else may happen to a device meanwhile:
`write` stands for every other operation that moves or changes one. -/
inductive Request
  | updateDevice (guid : String) (dto : UpdateDeviceDto) (actorGuid : String)
  | updateDeviceStatus (guids : List String) (status : PeerStatus) (actorGuid : String)
  | deleteDevice (guid actorGuid : String)
  | assignStrategy (strategyGuid : String) (targetGuids : List String) (actorGuid : String)
  | unassignStrategy (strategyGuid : String) (targetGuids : List String) (actorGuid : String)
  | write (uuid : String) (data : PeerUpdate)
  | register (peer : Peer)
  deriving DecidableEq

structure Call where
  id : ℕ
  request : Request
  deriving DecidableEq

/-- `checked` is what an access check found, `found` what an operation goes on with. -/
inductive Event
  | checked (peers : List Peer)
  | found (peers : List Peer)
  | committed
  | written (uuid : String)
  deriving DecidableEq

abbrev History := List (Call × Event)

/-- A row that an open transaction has changed or deleted. It stays locked until
the transaction ends. -/
structure Draft where
  call : Call
  uuid : String
  before : Peer
  after : Option Peer

structure World where
  peers : String → Option Peer
  tombstones : String → Option DeviceTombstone
  drafts : List Draft
  entombed : List (Call × DeviceTombstone)
  history : History

/-- What the world decides about one command. -/
structure Choice where
  permitted : Except Failure Unit
  found : Option String
  outcome : Except Failure Unit

def inGroups (scope : PermissionScope) (deviceGroupGuid : Option String) : Bool :=
  scope.global || deviceGroupGuid.any (· ∈ scope.deviceGroupGuids)

/-- The access check, for which an empty group is no group. -/
def authorized (scope : PermissionScope) (peer : Peer) : Bool :=
  inGroups scope (truthy peer.deviceGroupGuid)

/-- The rows of a write within a scope. -/
structure Where where
  uuids : List String
  scope : PermissionScope
  strategyGuid : Option String

def Where.selects (cond : Where) (peer : Peer) : Bool :=
  inGroups cond.scope peer.deviceGroupGuid && cond.strategyGuid.all (peer.strategyGuid = some ·)

namespace World

variable (w : World) (call : Call)

def note (event : Event) : World := { w with history := (call, event) :: w.history }

/-- `find` by primary keys. -/
def find (uuids : List String) : List Peer := uuids.eraseDups.filterMap w.peers

def matched (cond : Where) : List (String × Peer) :=
  cond.uuids.eraseDups.filterMap fun uuid ↦ ((w.peers uuid).filter cond.selects).map (uuid, ·)

def lockedFor (uuid : String) : Bool :=
  w.drafts.any fun draft ↦ draft.uuid = uuid && draft.call ≠ call

def busy : Failure := .error "database is locked"

/-- An `UPDATE` or `DELETE` within a transaction; it replies with the number of
rows that it matched. -/
def draft (cond : Where) (f : Peer → Option Peer) : Except Failure Unit → World × Except Failure ℕ
  | .error failure => (w, .error failure)
  | .ok () =>
    if (w.matched cond).any fun row ↦ w.lockedFor call row.1 then (w, .error busy)
    else ({ w with
      drafts := (w.matched cond).map (fun row ↦ ⟨call, row.1, row.2, f row.2⟩) ++ w.drafts },
      .ok (w.matched cond).length)

def entomb (tombstone : DeviceTombstone) : Except Failure Unit → World × Except Failure Unit
  | .error failure => (w, .error failure)
  | .ok () => ({ w with entombed := (call, tombstone) :: w.entombed }, .ok ())

def rollback : World :=
  { w with
    drafts := w.drafts.filter (·.call ≠ call)
    entombed := w.entombed.filter (·.1 ≠ call) }

def draftOf (uuid : String) : Option Draft :=
  w.drafts.find? fun draft ↦ draft.call = call && draft.uuid = uuid

def tombstoneOf (uuid : String) : Option DeviceTombstone :=
  (w.entombed.find? fun e ↦ e.1 = call && e.2.uuid = uuid).map Prod.snd

/-- An upsert keeps the other fields of a tombstone that is there. -/
def upsert (tombstone : DeviceTombstone) : Option DeviceTombstone → DeviceTombstone
  | none => tombstone
  | some row => { row with deviceId := tombstone.deviceId, deletedBy := tombstone.deletedBy }

/-- What the transaction has written takes effect, and its locks are released. -/
def commit : World :=
  { w.rollback call with
    peers := fun uuid ↦ (w.draftOf call uuid).elim (w.peers uuid) (·.after)
    tombstones := fun uuid ↦ (w.tombstoneOf call uuid).elim (w.tombstones uuid) fun tombstone ↦
      some (upsert tombstone (w.tombstones uuid)) }.note call .committed

/-- Another operation writes a row that is not locked. -/
def write (uuid : String) (data : PeerUpdate) : World :=
  if w.drafts.any (·.uuid = uuid) then w
  else { w with peers := update w.peers uuid ((w.peers uuid).map data.apply) }.note call
    (.written uuid)

def register (peer : Peer) : World :=
  if (w.peers peer.uuid).isSome then w
  else { w with peers := update w.peers peer.uuid (some peer) }.note call (.written peer.uuid)

end World

inductive Command
  | requirePermission (userGuid permissionCode : String)
  | requireSuperAdmin (userGuid : String)
  | checkPeers (uuids : List String)
  | findPeers (uuids : List String)
  | findUser (username : String)
  | findDeviceGroup (name : String)
  | findStrategyByName (name : String)
  | findStrategy (guid : String)
  | update (cond : Where) (data : PeerUpdate)
  | delete (cond : Where)
  | entomb (tombstone : DeviceTombstone)
  | commit
  | rollback
  | updateNow (cond : Where) (data : PeerUpdate)
  | write (uuid : String) (data : PeerUpdate)
  | register (peer : Peer)

@[reducible] def Reply : Command → Type
  | .requirePermission .. => Except Failure PermissionScope
  | .checkPeers _ | .findPeers _ => List Peer
  | .findUser _ | .findDeviceGroup _ | .findStrategyByName _ | .findStrategy _ => Option String
  | .update .. | .delete _ | .updateNow .. => Except Failure ℕ
  | .requireSuperAdmin _ | .entomb _ | .commit => Except Failure Unit
  | .rollback | .write .. | .register _ => Unit

section Exec

variable (scopeOf : String → String → PermissionScope)

/-- What an actor may do is `scopeOf` the actor and the permission. -/
def requirePermission (userGuid permissionCode : String) :
    Except Failure Unit → Except Failure PermissionScope
  | .error failure => .error failure
  | .ok () =>
    let scope := scopeOf userGuid permissionCode
    if !scope.global && scope.deviceGroupGuids.isEmpty then .error (.forbidden "Access denied")
    else .ok scope

/-- A write outside of a transaction. -/
def updateNow (w : World) (call : Call) (cond : Where) (data : PeerUpdate)
    (outcome : Except Failure Unit) : World × Except Failure ℕ :=
  match w.draft call cond (fun row ↦ some (data.apply row)) outcome with
  | (_, .error failure) => (w, .error failure)
  | (w', .ok affected) => (w'.commit call, .ok affected)

def exec (call : Call) : (c : Command) → Choice → World → World × Option (Reply c)
  | .requirePermission userGuid permissionCode, o, w =>
    (w, some (requirePermission scopeOf userGuid permissionCode o.permitted))
  | .requireSuperAdmin _, o, w => (w, some o.permitted)
  | .checkPeers uuids, _, w => (w.note call (.checked (w.find uuids)), some (w.find uuids))
  | .findPeers uuids, _, w => (w.note call (.found (w.find uuids)), some (w.find uuids))
  | .findUser _, o, w => (w, some o.found)
  | .findDeviceGroup _, o, w => (w, some o.found)
  | .findStrategyByName _, o, w => (w, some o.found)
  | .findStrategy _, o, w => (w, some o.found)
  | .update cond data, o, w =>
    (w.draft call cond (fun row ↦ some (data.apply row)) o.outcome).map id some
  | .delete cond, o, w => (w.draft call cond (fun _ ↦ none) o.outcome).map id some
  | .entomb tombstone, o, w => (w.entomb call tombstone o.outcome).map id some
  | .commit, o, w =>
    match o.outcome with
    | .error failure => (w, some (.error failure))
    | .ok () => (w.commit call, some (.ok ()))
  | .rollback, _, w => (w.rollback call, some ())
  | .updateNow cond data, o, w => (updateNow w call cond data o.outcome).map id some
  | .write uuid data, _, w => (w.write call uuid data, some ())
  | .register peer, _, w => (w.register call peer, some ())

end Exec

abbrev Handler := Process Command Reply Unit Failure

def ask (c : Command) : Handler (Reply c) := invoke c .ok

/-- The command throws what it replies as a failure. -/
def attempt {α : Type} (c : Command) (h : Reply c = Except Failure α) : Handler α :=
  invoke c fun reply ↦ h ▸ reply

def retry : Failure := .conflict "Device information has changed, please retry"

section Access

def assertDeviceAccess (userGuid permissionCode deviceUuid : String) :
    Handler (Peer × PermissionScope) := do
  let scope ← attempt (.requirePermission userGuid permissionCode) rfl
  match ← ask (.checkPeers [deviceUuid]) with
  | [] => throw (.notFound "Device not found")
  | peer :: _ =>
    if authorized scope peer then pure (peer, scope)
    else throw (.forbidden "Device is not in an authorized device group")

def assertDevicesAccess (userGuid permissionCode : String) (deviceUuids : List String) :
    Handler (List Peer × PermissionScope) := do
  let scope ← attempt (.requirePermission userGuid permissionCode) rfl
  let peers ← ask (.checkPeers deviceUuids)
  if peers.all (authorized scope) then pure (peers, scope)
  else throw (.forbidden "Batch request contains unauthorized devices")

def assertStrategyTargets (userGuid : String) (targetGuids : List String) :
    Handler PermissionScope := do
  let scope ← attempt (.requirePermission userGuid "strategies.assign") rfl
  let peers ← ask (.checkPeers targetGuids)
  if peers.all (authorized scope) then pure scope
  else throw (.forbidden "Target device is not in an authorized device group")

end Access

section Devices

def require (found : Option String) (failure : Failure) : Handler String :=
  match found with
  | none => throw failure
  | some guid => pure guid

/-- A name stands for what it is the name of, null for nothing. -/
def lookUp (name : Option (Option String)) (find : String → Handler (Option String))
    (failure : Failure) : Handler (Option (Option String)) :=
  match name with
  | none => pure none
  | some none => pure (some none)
  | some (some name) => do
    let found ← find name
    let guid ← require found failure
    pure (some (some guid))

def updateDevice (guid : String) (dto : UpdateDeviceDto) (actorGuid : String) : Handler Unit := do
  let (_, scope) ← assertDeviceAccess actorGuid "devices.edit" guid
  if dto.userName.isSome || dto.deviceGroupName.isSome || dto.strategyName.isSome then
    attempt (.requireSuperAdmin actorGuid) rfl
  let userGuid ← lookUp dto.userName (fun name ↦ ask (.findUser name))
    (.notFound "User does not exist")
  let deviceGroupGuid ← lookUp dto.deviceGroupName (fun name ↦ ask (.findDeviceGroup name))
    (.notFound "Device group does not exist")
  let strategyGuid ← lookUp dto.strategyName (fun name ↦ ask (.findStrategyByName name))
    (.notFound "Strategy does not exist")
  let updateData : PeerUpdate := ⟨userGuid, deviceGroupGuid, strategyGuid, dto.note, none⟩
  if updateData.isEmpty then pure ()
  else
    let affected ← attempt (.updateNow ⟨[guid], scope, none⟩ updateData) rfl
    if affected = 1 then pure ()
    else
      let _ ← assertDeviceAccess actorGuid "devices.edit" guid
      throw retry

def transaction {α : Type} (body : Handler α) : Handler α :=
  tryCatch
    (do
      let result ← body
      attempt .commit rfl
      pure result)
    fun failure ↦ do
      ask .rollback
      throw failure

structure DeviceOperationResult where
  succeeded : List String
  failed : List (String × String)
  total : ℕ

def updateDeviceStatus (guids : List String) (status : PeerStatus) (actorGuid : String) :
    Handler DeviceOperationResult := do
  let (existingPeers, scope) ← assertDevicesAccess actorGuid "devices.status" guids
  let uniqueGuids := guids.eraseDups
  let existingUuids := existingPeers.map (·.uuid)
  let failed := (uniqueGuids.filter (· ∉ existingUuids)).map fun guid ↦ (guid, "Device not found")
  let guidsToUpdate := uniqueGuids.filter (· ∈ existingUuids)
  if guidsToUpdate.isEmpty then pure ⟨[], failed, uniqueGuids.length⟩
  else
    tryCatch
      (transaction do
        let affected ← attempt
          (.update ⟨guidsToUpdate, scope, none⟩ ⟨none, none, none, none, some status⟩) rfl
        if affected = guidsToUpdate.length then pure () else throw retry)
      fun failure ↦ do
        if failure = retry then
          let _ ← assertDevicesAccess actorGuid "devices.status" guidsToUpdate
          throw failure
        else throw failure
    pure ⟨guidsToUpdate, failed, uniqueGuids.length⟩

/-- The follow-ups at the servers touch no device. -/
def deleteDevice (guid actorGuid : String) : Handler Unit := do
  let (peer, scope) ← assertDeviceAccess actorGuid "devices.delete" guid
  tryCatch
    (transaction do
      attempt (.entomb ⟨guid, peer.id, false, false, false, actorGuid⟩) rfl
      let affected ← attempt (.delete ⟨[guid], scope, none⟩) rfl
      if affected = 1 then pure () else throw retry)
    fun failure ↦ do
      match failure with
      | .conflict _ =>
        let _ ← assertDeviceAccess actorGuid "devices.delete" guid
        throw failure
      | _ => throw failure

end Devices

section Strategies

/-- The targets that were handled, and those that were not, with the reason. -/
structure Assignment where
  success : List String
  errors : List (String × String)

def assignStrategy (strategyGuid : String) (targetGuids : List String) (actorGuid : String) :
    Handler Assignment :=
  let targets := targetGuids.eraseDups
  transaction do
    let scope ← assertStrategyTargets actorGuid targets
    let strategy ← ask (.findStrategy strategyGuid)
    let _ ← require strategy (.notFound "Strategy not found")
    let peers ← ask (.findPeers targets)
    let uuids := peers.map (·.uuid)
    let errors := (targets.filter (· ∉ uuids)).map fun guid ↦ (guid, "Device not found")
    if peers.isEmpty then pure ⟨[], errors⟩
    else
      let affected ← attempt (.update ⟨uuids, scope, none⟩
        ⟨none, none, some (some strategyGuid), none, none⟩) rfl
      if affected = peers.length then pure ⟨uuids, errors⟩
      else
        let _ ← assertStrategyTargets actorGuid targets
        throw retry

def unassignStrategy (strategyGuid : String) (targetGuids : List String) (actorGuid : String) :
    Handler Assignment :=
  let targets := targetGuids.eraseDups
  transaction do
    let scope ← assertStrategyTargets actorGuid targets
    let strategy ← ask (.findStrategy strategyGuid)
    let _ ← require strategy (.notFound "Strategy not found")
    let peers ← ask (.findPeers targets)
    let assignedPeers := peers.filter (·.strategyGuid = some strategyGuid)
    let uuids := assignedPeers.map (·.uuid)
    let errors := (targets.filter (· ∉ uuids)).map fun guid ↦
      (guid, if guid ∉ peers.map (·.uuid) then "Device not found"
        else "Device is not bound to this strategy")
    if assignedPeers.isEmpty then pure ⟨[], errors⟩
    else
      let affected ← attempt (.update ⟨uuids, scope, some strategyGuid⟩
        ⟨none, none, some none, none, none⟩) rfl
      if affected = assignedPeers.length then pure ⟨uuids, errors⟩ else throw retry

end Strategies

section Machine

def ignore {α : Type} (handler : Handler α) : Handler Unit := do
  let _ ← handler
  pure ()

def serve : Request → Handler Unit
  | .updateDevice guid dto actorGuid => updateDevice guid dto actorGuid
  | .updateDeviceStatus guids status actorGuid => ignore (updateDeviceStatus guids status actorGuid)
  | .deleteDevice guid actorGuid => deleteDevice guid actorGuid
  | .assignStrategy strategyGuid targetGuids actorGuid =>
    ignore (assignStrategy strategyGuid targetGuids actorGuid)
  | .unassignStrategy strategyGuid targetGuids actorGuid =>
    ignore (unassignStrategy strategyGuid targetGuids actorGuid)
  | .write uuid data => ask (.write uuid data)
  | .register peer => ask (.register peer)

def handler (request : Request) : Prog Command Reply Unit :=
  (serve request).start () >>= fun _ ↦ .done ()

/-- Any number of operations at once. A call takes no part twice. -/
def machine (scopeOf : String → String → PermissionScope) :
    Machine Call Command Reply Choice World where
  exec := exec scopeOf
  admits call w p := (∀ event, (call, event) ∉ w.history) ∧
    (∀ draft ∈ w.drafts, draft.call ≠ call) ∧ (∀ e ∈ w.entombed, e.1 ≠ call) ∧
      p = handler call.request

end Machine

end RustdeskConsole.Batches
