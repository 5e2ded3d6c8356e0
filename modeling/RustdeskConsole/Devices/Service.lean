import Mathlib.Logic.Function.Basic
import RustdeskConsole.Effects.Machine
import RustdeskConsole.Rbac.Authorization

namespace RustdeskConsole.Devices

open Collections Effects Function
open Rbac (PermissionScope)

inductive Failure
  | notFound (message : String)
  | forbidden (message : String)
  | conflict (message : String)
  | error (message : String)
  deriving DecidableEq

def truthy (s : Option String) : Option String := s.filter (· ≠ "")

/-- A registered device; `uuid` is its primary key. -/
structure Peer where
  uuid : String
  id : String
  ver : ℤ
  modifiedAt : ℤ
  lastHeartbeat : ℕ
  deviceGroupGuid : Option String
  note : Option String

/-- A deleted device; `uuid` is its primary key. -/
structure DeviceTombstone where
  uuid : String
  deviceId : String
  banned : Bool
  releaseRequested : Bool
  idReleased : Bool
  deletedBy : String
  deriving DecidableEq

structure Sysinfo where
  uuid : String
  hostname : Option String
  username : Option String
  os : Option String
  cpu : Option String
  memory : Option String
  presetUsername : Option String
  presetStrategyName : Option String
  presetDeviceGroupName : Option String

structure HeartbeatDto where
  id : String
  uuid : String
  ver : ℤ
  modifiedAt : ℤ
  deriving DecidableEq

structure SysinfoDto where
  uuid : String
  id : Option String
  hostname : Option String
  username : Option String
  os : Option String
  cpu : Option String
  memory : Option String
  presetAddressBookName : Option String
  presetUsername : Option String
  presetStrategyName : Option String
  presetDeviceGroupName : Option String
  presetNote : Option String
  deriving DecidableEq

/-- What a heartbeat of a registered device leaves for the next flush. -/
structure BufferedPeerUpdate where
  id : String
  ver : ℤ
  modifiedAt : ℤ
  lastHeartbeat : ℕ

inductive SyncReason
  | notConfigured
  | forbidden
  | upstreamError
  deriving DecidableEq

structure DeviceBanSyncResult where
  enforced : Bool
  reason : Option SyncReason
  detail : Option String
  deriving DecidableEq

/-- The fields of a tombstone that a deletion sets once its follow-ups are done. -/
structure TombstonePatch where
  banned : Bool
  idReleased : Bool
  releaseRequested : Bool
  deriving DecidableEq

def TombstonePatch.isEmpty (patch : TombstonePatch) : Bool :=
  !patch.banned && !patch.idReleased && !patch.releaseRequested

def TombstonePatch.apply (patch : TombstonePatch) (tombstone : DeviceTombstone) :
    DeviceTombstone :=
  { tombstone with
    banned := tombstone.banned || patch.banned
    idReleased := tombstone.idReleased || patch.idReleased
    releaseRequested := tombstone.releaseRequested || patch.releaseRequested }

/-- The reports of devices and the actions of operators; `flush` is the timer of
the heartbeat cache, `lateWrite` a write that reaches the servers after its
caller was told that it failed. -/
inductive Request
  | heartbeat (data : HeartbeatDto)
  | sysinfo (dto : SysinfoDto)
  | flush
  | deleteDevice (guid actorGuid : String) (protocolBan releaseId : Bool)
  | restoreTombstone (uuid actorGuid : String)
  | lateWrite (index : ℕ)
  deriving DecidableEq

structure Call where
  id : ℕ
  request : Request
  deriving DecidableEq

inductive Event
  | cleared (uuid : String)
  | found (uuid deviceId : String) (banned : Bool)
  | registered (uuid : String)
  | deleted (uuid deviceId : String)
  | banned (uuid deviceId : String)
  | patched (uuid : String) (saved : Bool)
  | lifted (uuid deviceId : String)
  | removed (uuid : String) (saved : Bool)
  | overwritten (deviceIds : List String)
  deriving DecidableEq

abbrev History := List (Call × Event)

/-- The tables of the devices, the heartbeat cache, and the ban list of the
servers. `lateBans` holds what writes reported as failed may still make of it. -/
structure World where
  peers : String → Option Peer
  tombstones : String → Option DeviceTombstone
  sysinfos : String → Option Sysinfo
  peerBuffer : OrderedMap String BufferedPeerUpdate
  flushing : Bool
  bans : List String
  lateBans : List (List String)
  history : History

/-- How a write of the ban list ends. After a failure it may still be on its way. -/
inductive BanOutcome
  | applied
  | notConfigured
  | failed (detail : String) (onItsWay : Bool)

/-- What the world decides about one command. -/
structure Choice where
  now : ℕ
  permission : Except Failure PermissionScope
  canEnforce : Except Failure Bool
  ban : BanOutcome
  release : DeviceBanSyncResult
  deviceGroup : Option String
  outcome : Except Failure Unit

namespace World

variable (w : World) (call : Call)

def note (event : Event) : World := { w with history := (call, event) :: w.history }

/-- `deviceTombstoneRepository.findOne`. -/
def findTombstone (uuid : String) : World × Option DeviceTombstone :=
  match w.tombstones uuid with
  | none => (w.note call (.cleared uuid), none)
  | some tombstone =>
    (w.note call (.found uuid tombstone.deviceId tombstone.banned), some tombstone)

/-- `peerRepository.save`: a row that is there gets the fields that are set. -/
def savePeer (peer : Peer) : Except Failure Unit → World × Except Failure Unit
  | .error failure => (w, .error failure)
  | .ok () =>
    match w.peers peer.uuid with
    | some row => ({ w with peers := update w.peers peer.uuid (some { row with
        id := peer.id, ver := peer.ver, modifiedAt := peer.modifiedAt
        lastHeartbeat := peer.lastHeartbeat }) }, .ok ())
    | none => ({ w with peers := update w.peers peer.uuid (some peer) }.note call
        (.registered peer.uuid), .ok ())

def updatePeer (uuid : String) (f : Peer → Peer) : World :=
  { w with peers := update w.peers uuid ((w.peers uuid).map f) }

/-- The start of `flush`, which takes the buffered updates. -/
def takeBuffer : World × Option (OrderedMap String BufferedPeerUpdate) :=
  if w.flushing || w.peerBuffer.entries.isEmpty then (w, none)
  else ({ w with flushing := true, peerBuffer := .empty }, some w.peerBuffer)

/-- The transaction of `flush`. What it fails to write is kept for the next one,
unless a newer update has come. -/
def writeBuffer (snapshot : OrderedMap String BufferedPeerUpdate) :
    Except Failure Unit → World
  | .ok () => { snapshot.entries.foldl (fun w entry ↦ w.updatePeer entry.1 fun row ↦ { row with
      id := entry.2.id, ver := entry.2.ver, modifiedAt := entry.2.modifiedAt
      lastHeartbeat := entry.2.lastHeartbeat }) w with flushing := false }
  | .error _ => { w with
      flushing := false
      peerBuffer := snapshot.entries.foldl (fun buffer entry ↦
        if (buffer.get? entry.1).isSome then buffer else buffer.set entry.1 entry.2) w.peerBuffer }

def assertDeviceAccess (guid : String) (permission : Except Failure PermissionScope) :
    Except Failure (PermissionScope × Peer) := do
  let scope ← permission
  match w.peers guid with
  | none => .error (.notFound "Device not found")
  | some peer =>
    if !scope.global && !(truthy peer.deviceGroupGuid).any (· ∈ scope.deviceGroupGuids) then
      .error (.forbidden "Device is not in an authorized device group")
    else pure (scope, peer)

/-- The rows that a deletion within the scope may delete. -/
def deletable (guid : String) (scope : PermissionScope) : Bool :=
  (w.peers guid).any fun peer ↦
    scope.global || peer.deviceGroupGuid.any (· ∈ scope.deviceGroupGuids)

/-- The upsert keeps the other fields of a tombstone that is there. -/
def entomb (guid deviceId actorGuid : String) : DeviceTombstone :=
  match w.tombstones guid with
  | none => ⟨guid, deviceId, false, false, false, actorGuid⟩
  | some tombstone => { tombstone with deviceId := deviceId, deletedBy := actorGuid }

/-- The transaction of `deleteDevice`. -/
def deleteRow (guid deviceId actorGuid : String) (scope : PermissionScope) :
    Except Failure Unit → World × Except Failure Unit
  | .error failure => (w, .error failure)
  | .ok () =>
    if w.deletable guid scope then
      ({ w with
        peers := update w.peers guid none
        tombstones := update w.tombstones guid (some (w.entomb guid deviceId actorGuid)) }.note call
        (.deleted guid deviceId), .ok ())
    else (w, .error (.conflict "Device information has changed, please retry"))

/-- One cycle of `ServerManagementService.syncDeviceBans`. Its queue runs one
cycle at a time, so that the list it writes is the list it read. -/
def syncDeviceBans (add remove : List String) (event : Event) :
    BanOutcome → World × DeviceBanSyncResult
  | .notConfigured => (w, ⟨false, some .notConfigured, none⟩)
  | .applied =>
    ({ w with bans := (w.bans ++ add).filter (· ∉ remove) }.note call event, ⟨true, none, none⟩)
  | .failed detail onItsWay =>
    (if onItsWay then
        { w with lateBans := w.lateBans ++ [(w.bans ++ add).filter (· ∉ remove)] }
      else w, ⟨false, some .upstreamError, some detail⟩)

def patchTombstone (uuid : String) (patch : TombstonePatch) :
    Except Failure Unit → World × Except Failure Unit
  | .error failure => (w.note call (.patched uuid false), .error failure)
  | .ok () =>
    ({ w with tombstones := update w.tombstones uuid ((w.tombstones uuid).map patch.apply) }.note call
      (.patched uuid true), .ok ())

def removeTombstone (uuid : String) : Except Failure Unit → World × Except Failure Unit
  | .error failure => (w.note call (.removed uuid false), .error failure)
  | .ok () =>
    ({ w with tombstones := update w.tombstones uuid none }.note call (.removed uuid true), .ok ())

def lateWrite (index : ℕ) : World :=
  match w.lateBans[index]? with
  | none => w
  | some ids =>
    { w with bans := ids, lateBans := w.lateBans.eraseIdx index }.note call (.overwritten ids)

end World

inductive Command
  | findTombstone (uuid : String)
  | findPeer (uuid : String)
  | bufferPeerUpdate (uuid : String) (data : HeartbeatDto)
  | savePeer (uuid : String) (data : HeartbeatDto)
  | findSysinfo (uuid : String)
  | saveSysinfo (sysinfo : Sysinfo)
  | addToAddressBook
  | findDeviceGroup
  | setDeviceGroup (uuid deviceGroupGuid : String)
  | setNote (uuid note : String)
  | takeBuffer
  | writeBuffer (snapshot : OrderedMap String BufferedPeerUpdate)
  | assertDeviceAccess (guid : String)
  | assertGlobalDeleteScope
  | deleteRow (guid deviceId actorGuid : String) (scope : PermissionScope)
  | canEnforceProtocolBans
  | ban (guid deviceId : String)
  | unban (uuid deviceId : String)
  | releaseDeviceId
  | patchTombstone (uuid : String) (patch : TombstonePatch)
  | removeTombstone (uuid : String)
  | lateWrite (index : ℕ)

@[reducible] def Reply : Command → Type
  | .findTombstone _ => Option DeviceTombstone
  | .findPeer _ => Option Peer
  | .findSysinfo _ => Option Sysinfo
  | .findDeviceGroup => Option String
  | .takeBuffer => Option (OrderedMap String BufferedPeerUpdate)
  | .assertDeviceAccess _ => Except Failure (PermissionScope × Peer)
  | .canEnforceProtocolBans => Except Failure Bool
  | .ban .. | .unban .. | .releaseDeviceId => DeviceBanSyncResult
  | .bufferPeerUpdate .. | .writeBuffer _ | .lateWrite _ => Unit
  | .savePeer .. | .saveSysinfo _ | .addToAddressBook | .setDeviceGroup .. | .setNote ..
  | .assertGlobalDeleteScope | .deleteRow .. | .patchTombstone .. | .removeTombstone _ =>
    Except Failure Unit

/-- A tombstone is seen by the devices of every group. -/
def assertGlobalDeleteScope (permission : Except Failure PermissionScope) : Except Failure Unit := do
  let scope ← permission
  if scope.global then pure ()
  else .error (.forbidden "Deleted devices can only be managed with a global permission")

def exec (call : Call) : (c : Command) → Choice → World → World × Option (Reply c)
  | .findTombstone uuid, _, w => (w.findTombstone call uuid).map id some
  | .findPeer uuid, _, w => (w, some (w.peers uuid))
  | .bufferPeerUpdate uuid data, o, w =>
    ({ w with peerBuffer := w.peerBuffer.set uuid ⟨data.id, data.ver, data.modifiedAt, o.now⟩ },
      some ())
  | .savePeer uuid data, o, w =>
    (w.savePeer call ⟨uuid, data.id, data.ver, data.modifiedAt, o.now, none, none⟩ o.outcome).map
      id some
  | .findSysinfo uuid, _, w => (w, some (w.sysinfos uuid))
  | .saveSysinfo sysinfo, o, w =>
    match o.outcome with
    | .error failure => (w, some (.error failure))
    | .ok () => ({ w with sysinfos := update w.sysinfos sysinfo.uuid (some sysinfo) }, some (.ok ()))
  | .addToAddressBook, o, w => (w, some o.outcome)
  | .findDeviceGroup, o, w => (w, some o.deviceGroup)
  | .setDeviceGroup uuid deviceGroupGuid, o, w =>
    match o.outcome with
    | .error failure => (w, some (.error failure))
    | .ok () => (w.updatePeer uuid fun row ↦ { row with deviceGroupGuid := some deviceGroupGuid },
        some (.ok ()))
  | .setNote uuid note, o, w =>
    match o.outcome with
    | .error failure => (w, some (.error failure))
    | .ok () => (w.updatePeer uuid fun row ↦ { row with note := some note }, some (.ok ()))
  | .takeBuffer, _, w => w.takeBuffer.map id some
  | .writeBuffer snapshot, o, w => (w.writeBuffer snapshot o.outcome, some ())
  | .assertDeviceAccess guid, o, w => (w, some (w.assertDeviceAccess guid o.permission))
  | .assertGlobalDeleteScope, o, w => (w, some (assertGlobalDeleteScope o.permission))
  | .deleteRow guid deviceId actorGuid scope, o, w =>
    (w.deleteRow call guid deviceId actorGuid scope o.outcome).map id some
  | .canEnforceProtocolBans, o, w => (w, some o.canEnforce)
  | .ban guid deviceId, o, w =>
    (w.syncDeviceBans call [deviceId] [] (.banned guid deviceId) o.ban).map id some
  | .unban uuid deviceId, o, w =>
    (w.syncDeviceBans call [] [deviceId] (.lifted uuid deviceId) o.ban).map id some
  | .releaseDeviceId, o, w => (w, some o.release)
  | .patchTombstone uuid patch, o, w => (w.patchTombstone call uuid patch o.outcome).map id some
  | .removeTombstone uuid, o, w => (w.removeTombstone call uuid o.outcome).map id some
  | .lateWrite index, _, w => (w.lateWrite call index, some ())

abbrev Handler := Process Command Reply Unit Failure

def ask (c : Command) : Handler (Reply c) := invoke c .ok

section Reports

variable (isolatedDeviceUuid : String → String → String) (cloneIsolation : Bool)

def resolveDeviceUuid (uuid id : String) : Handler String := do
  if cloneIsolation then
    let isolated := isolatedDeviceUuid uuid id
    match ← ask (.findPeer isolated) with
    | some _ => pure isolated
    | none =>
      let legacy ← ask (.findPeer uuid)
      pure (if legacy.any (·.id = id) then uuid else isolated)
  else pure uuid

/-- A deleted device stays deleted under the key of its time. -/
def deletedBefore (data : HeartbeatDto) : Handler Bool := do
  if cloneIsolation then
    let legacyTombstone ← ask (.findTombstone data.uuid)
    pure (legacyTombstone.any (·.deviceId = data.id))
  else pure false

/-- Only an unknown device that was not deleted is registered. -/
def register (uuid : String) (data : HeartbeatDto) : Handler Unit := do
  match ← ask (.findPeer uuid) with
  | some _ => ask (.bufferPeerUpdate uuid data)
  | none =>
    match ← ask (.findTombstone uuid) with
    | some _ => pure ()
    | none => invoke (.savePeer uuid data) fun reply ↦ reply

def handleHeartbeat (data : HeartbeatDto) : Handler Unit := do
  if ← deletedBefore cloneIsolation data then pure ()
  else
    let uuid ← resolveDeviceUuid isolatedDeviceUuid cloneIsolation data.uuid data.id
    register uuid data

/-- The row after a report: fields that the report leaves out stay as they were. -/
def mergeSysinfo (uuid : String) (dto : SysinfoDto) : Option Sysinfo → Sysinfo
  | none => ⟨uuid, dto.hostname, dto.username, dto.os, dto.cpu, dto.memory, dto.presetUsername,
      dto.presetStrategyName, dto.presetDeviceGroupName⟩
  | some row => {
      uuid := row.uuid
      hostname := dto.hostname.or row.hostname
      username := dto.username.or row.username
      os := dto.os.or row.os
      cpu := dto.cpu.or row.cpu
      memory := dto.memory.or row.memory
      presetUsername := (truthy dto.presetUsername).or row.presetUsername
      presetStrategyName := (truthy dto.presetStrategyName).or row.presetStrategyName
      presetDeviceGroupName := (truthy dto.presetDeviceGroupName).or row.presetDeviceGroupName }

def addToDeviceGroup (sysinfo : Sysinfo) : Handler Unit := do
  match ← ask .findDeviceGroup with
  | none => pure ()
  | some deviceGroupGuid =>
    match ← ask (.findPeer sysinfo.uuid) with
    | none => pure ()
    | some _ => invoke (.setDeviceGroup sysinfo.uuid deviceGroupGuid) fun reply ↦ reply

/-- A note that is there is kept. -/
def setPresetNote (uuid presetNote : String) : Handler Unit := do
  match ← ask (.findPeer uuid) with
  | none => pure ()
  | some peer =>
    if (truthy peer.note).isNone then invoke (.setNote uuid presetNote) fun reply ↦ reply
    else pure ()

/-- Its failure is only logged. -/
def processPresetSettings (sysinfo : Sysinfo) (dto : SysinfoDto) : Handler Unit :=
  tryCatch
    (do
      if (truthy dto.presetAddressBookName).isSome then
        invoke .addToAddressBook fun reply ↦ reply
      if (truthy sysinfo.presetDeviceGroupName).isSome then addToDeviceGroup sysinfo
      match truthy dto.presetNote with
      | none => pure ()
      | some presetNote => setPresetNote sysinfo.uuid presetNote)
    fun _ ↦ pure ()

def createSysinfo (dto : SysinfoDto) : Handler Bool := do
  if cloneIsolation && (truthy dto.id).isNone then pure false
  else
    let uuid ← match truthy dto.id with
      | none => pure dto.uuid
      | some id => resolveDeviceUuid isolatedDeviceUuid cloneIsolation dto.uuid id
    match ← ask (.findPeer uuid) with
    | none => pure false
    | some _ =>
      let existing ← ask (.findSysinfo uuid)
      let sysinfo := mergeSysinfo uuid dto existing
      invoke (.saveSysinfo sysinfo) fun reply ↦ reply
      processPresetSettings sysinfo dto
      pure true

def flush : Handler Unit := do
  match ← ask .takeBuffer with
  | none => pure ()
  | some snapshot => ask (.writeBuffer snapshot)

end Reports

section Deletion

def Failure.text : Failure → String
  | .notFound message | .forbidden message | .conflict message | .error message => message

/-- A follow-up at the servers, for those who may ban there. It never throws. -/
def enforce (sync : Handler DeviceBanSyncResult) : Handler DeviceBanSyncResult := do
  let permitted ← tryCatch
    (do
      let permitted ← invoke .canEnforceProtocolBans fun reply ↦ reply
      pure (.inl permitted : Bool ⊕ Failure))
    fun failure ↦ pure (.inr failure)
  match permitted with
  | .inl true => sync
  | .inl false => pure ⟨false, some .forbidden, none⟩
  | .inr failure => pure ⟨false, some .upstreamError,
      some ("Failed to verify the servers.ban permission: " ++ failure.text)⟩

def enforceIf (condition : Bool) (sync : Handler DeviceBanSyncResult) :
    Handler (Option DeviceBanSyncResult) :=
  if condition then some <$> enforce sync else pure none

/-- What `deleteDevice` answers. -/
structure Deletion where
  protocolEnforcement : Option DeviceBanSyncResult
  idRelease : Option DeviceBanSyncResult

/-- What `restoreTombstone` answers. -/
structure Restoration where
  restored : Bool
  protocolEnforcement : Option DeviceBanSyncResult
  idRelease : Option DeviceBanSyncResult

def enforced (result : Option DeviceBanSyncResult) : Bool := result.any (·.enforced)

def DeviceBanSyncResult.explain (result : DeviceBanSyncResult) (detail : String) :
    DeviceBanSyncResult :=
  { result with detail := some detail }

def deletionReport (protocolEnforcement idRelease : Option DeviceBanSyncResult) : Deletion where
  protocolEnforcement := protocolEnforcement.map fun result ↦
    if result.enforced then result
    else result.explain ("The device stays deleted, but it can still register with the " ++
      "servers until the ban is applied.")
  idRelease := idRelease.map fun result ↦
    if !result.enforced then
      result.explain ("The device stays deleted, but its id remains bound to the old machine at " ++
        "the servers until it is released.")
    else if enforced protocolEnforcement then
      result.explain ("The id is freed from the peer registry, but the protocol ban still blocks " ++
        "it until the device is restored.")
    else result

/-- The rest of `deleteDevice` once the deletion is committed. -/
def followUp (guid deviceId : String) (protocolBan releaseId : Bool) : Handler Deletion := do
  let protocolEnforcement ← enforceIf (protocolBan && deviceId ≠ "") (ask (.ban guid deviceId))
  let idRelease ← enforceIf (releaseId && deviceId ≠ "") (ask .releaseDeviceId)
  let patch : TombstonePatch := ⟨enforced protocolEnforcement, enforced idRelease,
    releaseId && deviceId ≠ ""⟩
  if patch.isEmpty then pure ()
  else invoke (.patchTombstone guid patch) fun reply ↦ reply
  pure (deletionReport protocolEnforcement idRelease)

def deleteDevice (guid actorGuid : String) (protocolBan releaseId : Bool) : Handler Deletion := do
  let (scope, peer) ← invoke (.assertDeviceAccess guid) fun reply ↦ reply
  tryCatch (invoke (.deleteRow guid peer.id actorGuid scope) fun reply ↦ reply) fun failure ↦ do
    match failure with
    | .conflict _ =>
      let _ ← invoke (.assertDeviceAccess guid) fun reply ↦ reply
      throw failure
    | _ => throw failure
  followUp guid peer.id protocolBan releaseId

/-- The rest of `restoreTombstone` once no ban is left to lift. -/
def reenroll (tombstone : DeviceTombstone) (uuid : String)
    (protocolEnforcement : Option DeviceBanSyncResult) : Handler Restoration := do
  let idRelease ← enforceIf
    (tombstone.deviceId ≠ "" && tombstone.releaseRequested && !tombstone.idReleased)
    (ask .releaseDeviceId)
  invoke (.removeTombstone uuid) fun reply ↦ reply
  pure ⟨true, protocolEnforcement, idRelease.map fun result ↦
    if result.enforced then result
    else result.explain ("The device is restored, but its id may still be bound to the old " ++
      "machine at the servers.")⟩

def restoreTombstone (uuid : String) : Handler Restoration := do
  invoke .assertGlobalDeleteScope fun reply ↦ reply
  match ← ask (.findTombstone uuid) with
  | none => throw (.notFound "Deleted device not found")
  | some tombstone =>
    if tombstone.banned && tombstone.deviceId ≠ "" then
      let result ← enforce (ask (.unban uuid tombstone.deviceId))
      if result.enforced then reenroll tombstone uuid (some result)
      else pure ⟨false, some result, none⟩
    else reenroll tombstone uuid none

end Deletion

section Machine

variable (isolatedDeviceUuid : String → String → String) (cloneIsolation : Bool)

def ignore {α : Type} (handler : Handler α) : Handler Unit := do
  let _ ← handler
  pure ()

def serve : Request → Handler Unit
  | .heartbeat data => handleHeartbeat isolatedDeviceUuid cloneIsolation data
  | .sysinfo dto => ignore (createSysinfo isolatedDeviceUuid cloneIsolation dto)
  | .flush => flush
  | .deleteDevice guid actorGuid protocolBan releaseId =>
    ignore (deleteDevice guid actorGuid protocolBan releaseId)
  | .restoreTombstone uuid _ => ignore (restoreTombstone uuid)
  | .lateWrite index => ask (.lateWrite index)

def handler (request : Request) : Prog Command Reply Unit :=
  (serve isolatedDeviceUuid cloneIsolation request).start () >>= fun _ ↦ .done ()

/-- Any number of reports and operators at once, under one setting. -/
def machine : Machine Call Command Reply Choice World where
  exec := exec
  admits call w p := (∀ event, (call, event) ∉ w.history) ∧
    p = handler isolatedDeviceUuid cloneIsolation call.request

end Machine

end RustdeskConsole.Devices
