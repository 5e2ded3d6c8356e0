import RustdeskConsole.Devices.Service

namespace RustdeskConsole.Heartbeats

open Collections Effects Function
open Rbac (PermissionScope)
open Devices (Failure Peer DeviceTombstone BufferedPeerUpdate truthy assertGlobalDeleteScope)

deriving instance DecidableEq for Devices.BufferedPeerUpdate

/-- A value in a list of connection ids, of which the DTO checks nothing. A list or an
object is told from others by its identity. -/
inductive ConnId
  | null
  | boolean (value : Bool)
  | integer (value : ℤ)
  | fraction (text : String)
  | text (value : String)
  | compound (identity : ℕ)
  deriving DecidableEq

/-- What a device says of its connections: null, or a list. -/
abbrev Conns := Option (List ConnId)

/-- What the columns make of what is written to them: nothing of a value they refuse. -/
structure Columns where
  connId : ConnId → Option ConnId
  takes : BufferedPeerUpdate → Bool
  held : ∀ c d, connId c = some d → connId d = some d

structure HeartbeatDto where
  id : String
  uuid : String
  ver : ℤ
  modifiedAt : ℤ
  conns : Option Conns
  deriving DecidableEq

/-- A heartbeat that was accepted for a device. -/
structure Beat where
  update : BufferedPeerUpdate
  conns : Option Conns
  deriving DecidableEq

def Beat.time (beat : Beat) : ℕ := beat.update.lastHeartbeat

def HeartbeatDto.beat (data : HeartbeatDto) (now : ℕ) : Beat :=
  ⟨⟨data.id, data.ver, data.modifiedAt, now⟩, data.conns⟩

/-- The row with an update written to it. -/
def applyUpdate (update : BufferedPeerUpdate) (row : Peer) : Peer :=
  { row with
    id := update.id, ver := update.ver, modifiedAt := update.modifiedAt
    lastHeartbeat := update.lastHeartbeat }

/-- What a heartbeat sets of a row. -/
def rowUpdate (row : Peer) : BufferedPeerUpdate :=
  ⟨row.id, row.ver, row.modifiedAt, row.lastHeartbeat⟩

@[simp] theorem rowUpdate_applyUpdate (update : BufferedPeerUpdate) (row : Peer) :
    rowUpdate (applyUpdate update row) = update := rfl

inductive Request
  | heartbeat (data : HeartbeatDto)
  | flush
  | deleteDevice (guid actorGuid : String)
  | restoreTombstone (uuid : String)
  deriving DecidableEq

structure Call where
  id : ℕ
  request : Request
  deriving DecidableEq

/-- `saved` also tells whether the row was inserted, and `handed` is the
connection list of a heartbeat that saved its row before. -/
inductive Event
  | buffered (uuid : String) (beat : Beat)
  | saved (uuid : String) (beat : Beat) (inserted : Bool)
  | handed (uuid : String) (beat : Beat)
  deriving DecidableEq

abbrev History := List (Call × Event)

/-- What a flush has taken from the buffers. -/
structure Snapshot where
  peers : OrderedMap String BufferedPeerUpdate
  conns : OrderedMap String Conns

/-- The tables of the devices and the heartbeat cache, with the flush under way. -/
structure World where
  peers : String → Option Peer
  tombstones : String → Option DeviceTombstone
  activeConnections : String → List ConnId
  peerBuffer : OrderedMap String BufferedPeerUpdate
  connsBuffer : OrderedMap String Conns
  activeFlush : Option Snapshot
  history : History

/-- What the world decides about one command. -/
structure Choice where
  now : ℕ
  permission : Except Failure PermissionScope
  lifted : Bool
  outcome : Except Failure Unit

section Flush

variable (columns : Columns)

/-- `manager.update`, of a row that may be gone. -/
def writePeer (change : BufferedPeerUpdate) : Option Peer → Option (Option Peer)
  | none => some none
  | some row => if columns.takes change then some (some (applyUpdate change row)) else none

/-- The rows that are left of the old connections, and the new ones after them. Null has
no `filter`. -/
def syncConnections (existing : List ConnId) : Conns → Option (List ConnId)
  | none => none
  | some reported => do
    let added ← (reported.filter (· ∉ existing)).mapM columns.connId
    some (existing.filter (· ∈ reported) ++ added)

/-- The connections of a device that is gone are skipped. -/
def writeConns (conns : Conns) (peer : Option Peer) (existing : List ConnId) :
    Option (List ConnId) :=
  if peer.isSome then syncConnections columns existing conns else some existing

end Flush

namespace World

variable (w : World) (call : Call)

def note (event : Event) : World := { w with history := (call, event) :: w.history }

def bufferConns (uuid : String) (beat : Beat) : World :=
  match beat.conns with
  | none => w
  | some conns => { w with connsBuffer := w.connsBuffer.set uuid conns }

/-- Both buffers are filled with no await in between. -/
def bufferHeartbeat (uuid : String) (beat : Beat) : World :=
  ({ w with peerBuffer := w.peerBuffer.set uuid beat.update }.bufferConns uuid beat).note call
    (.buffered uuid beat)

/-- A buffered null gives way to what is being flushed. -/
def getBufferedConns (uuid : String) : Option Conns :=
  match w.connsBuffer.get? uuid with
  | some (some conns) => some (some conns)
  | _ => w.activeFlush.bind (·.conns.get? uuid)

/-- `peerRepository.save`: a row that is there gets the fields that are set. -/
def savePeer (uuid : String) (beat : Beat) : Except Failure Unit → World × Except Failure Unit
  | .error failure => (w, .error failure)
  | .ok () =>
    match w.peers uuid with
    | some row => ({ w with peers := update w.peers uuid (some (applyUpdate beat.update row)) }.note
        call (.saved uuid beat false), .ok ())
    | none => ({ w with peers := update w.peers uuid (some ⟨uuid, beat.update.id, beat.update.ver,
        beat.update.modifiedAt, beat.update.lastHeartbeat, none, none⟩) }.note
        call (.saved uuid beat true), .ok ())

/-- The start of `flush`. -/
def takeBuffers : World × Bool :=
  if w.activeFlush.isSome || (w.peerBuffer.entries.isEmpty && w.connsBuffer.entries.isEmpty) then
    (w, false)
  else ({ w with
    activeFlush := some ⟨w.peerBuffer, w.connsBuffer⟩
    peerBuffer := .empty
    connsBuffer := .empty }, true)

/-- The transaction of `flush`: the rows one after the other, then the connections. -/
def transaction (columns : Columns) (snapshot : Snapshot) : Option World := do
  let peers ← snapshot.peers.entries.foldlM (fun peers e ↦
    (writePeer columns e.2 (peers e.1)).map (update peers e.1)) w.peers
  let activeConnections ← snapshot.conns.entries.foldlM (fun connections e ↦
    (writeConns columns e.2 (peers e.1) (connections e.1)).map (update connections e.1))
    w.activeConnections
  some { w with peers, activeConnections, activeFlush := none }

/-- What a flush fails to write is kept for the next one, unless something newer has come. -/
def restoreBuffers (snapshot : Snapshot) : World :=
  { w with
    activeFlush := none
    peerBuffer := snapshot.peers.entries.foldl (fun buffer e ↦
      if (buffer.get? e.1).isSome then buffer else buffer.set e.1 e.2) w.peerBuffer
    connsBuffer := snapshot.conns.entries.foldl (fun buffer e ↦
      if (buffer.get? e.1).isSome then buffer else buffer.set e.1 e.2) w.connsBuffer }

def writeBuffers (columns : Columns) (snapshot : Snapshot) : Except Failure Unit → World
  | .ok () => (w.transaction columns snapshot).getD (w.restoreBuffers snapshot)
  | .error _ => w.restoreBuffers snapshot

/-- The end of the flush under way, if there is one. -/
def endFlush (columns : Columns) (outcome : Except Failure Unit) : World :=
  match w.activeFlush with
  | none => w
  | some snapshot => w.writeBuffers columns snapshot outcome

def assertDeviceAccess (guid : String) (permission : Except Failure PermissionScope) :
    Except Failure (PermissionScope × Peer) := do
  let scope ← permission
  match w.peers guid with
  | none => .error (.notFound "Device not found")
  | some peer =>
    if !scope.global && !(truthy peer.deviceGroupGuid).any (· ∈ scope.deviceGroupGuids) then
      .error (.forbidden "Device is not in an authorized device group")
    else pure (scope, peer)

def deletable (guid : String) (scope : PermissionScope) : Bool :=
  (w.peers guid).any fun peer ↦
    scope.global || peer.deviceGroupGuid.any (· ∈ scope.deviceGroupGuids)

/-- The transaction of `deleteDevice`. The connections go with the row. -/
def deleteRow (guid deviceId actorGuid : String) (scope : PermissionScope) :
    Except Failure Unit → World × Except Failure Unit
  | .error failure => (w, .error failure)
  | .ok () =>
    if w.deletable guid scope then
      ({ w with
        peers := update w.peers guid none
        activeConnections := update w.activeConnections guid []
        tombstones := update w.tombstones guid (some ((w.tombstones guid).elim
          ⟨guid, deviceId, false, false, false, actorGuid⟩
          ({ · with deviceId := deviceId, deletedBy := actorGuid }))) }, .ok ())
    else (w, .error (.conflict "Device information has changed, please retry"))

def removeTombstone (uuid : String) : Except Failure Unit → World × Except Failure Unit
  | .error failure => (w, .error failure)
  | .ok () => ({ w with tombstones := update w.tombstones uuid none }, .ok ())

end World

inductive Command
  | findTombstone (uuid : String)
  | findPeer (uuid : String)
  | bufferHeartbeat (uuid : String) (data : HeartbeatDto)
  | now
  | savePeer (uuid : String) (beat : Beat)
  | bufferConns (uuid : String) (beat : Beat)
  | takeBuffers
  | endFlush
  | assertDeviceAccess (guid : String)
  | deleteRow (guid deviceId actorGuid : String) (scope : PermissionScope)
  | assertGlobalDeleteScope
  | liftBan
  | removeTombstone (uuid : String)
  | getBufferedConns (uuid : String)
  | findConnections (uuid : String)

@[reducible] def Reply : Command → Type
  | .findTombstone _ => Option DeviceTombstone
  | .findPeer _ => Option Peer
  | .now => ℕ
  | .takeBuffers | .liftBan => Bool
  | .assertDeviceAccess _ => Except Failure (PermissionScope × Peer)
  | .getBufferedConns _ => Option Conns
  | .findConnections _ => List ConnId
  | .bufferHeartbeat .. | .bufferConns .. | .endFlush => Unit
  | .savePeer .. | .deleteRow .. | .assertGlobalDeleteScope | .removeTombstone _ =>
    Except Failure Unit

def exec (columns : Columns) (call : Call) :
    (c : Command) → Choice → World → World × Option (Reply c)
  | .findTombstone uuid, _, w => (w, some (w.tombstones uuid))
  | .findPeer uuid, _, w => (w, some (w.peers uuid))
  | .bufferHeartbeat uuid data, o, w => (w.bufferHeartbeat call uuid (data.beat o.now), some ())
  | .now, o, w => (w, some o.now)
  | .savePeer uuid beat, o, w => (w.savePeer call uuid beat o.outcome).map id some
  | .bufferConns uuid beat, _, w =>
    ((w.bufferConns uuid beat).note call (.handed uuid beat), some ())
  | .takeBuffers, _, w => w.takeBuffers.map id some
  | .endFlush, o, w => (w.endFlush columns o.outcome, some ())
  | .assertDeviceAccess guid, o, w => (w, some (w.assertDeviceAccess guid o.permission))
  | .deleteRow guid deviceId actorGuid scope, o, w =>
    (w.deleteRow guid deviceId actorGuid scope o.outcome).map id some
  | .assertGlobalDeleteScope, o, w => (w, some (Devices.assertGlobalDeleteScope o.permission))
  | .liftBan, o, w => (w, some o.lifted)
  | .removeTombstone uuid, o, w => (w.removeTombstone uuid o.outcome).map id some
  | .getBufferedConns uuid, _, w => (w, some (w.getBufferedConns uuid))
  | .findConnections uuid, _, w => (w, some (w.activeConnections uuid))

abbrev Handler := Process Command Reply Unit Failure

def ask (c : Command) : Handler (Reply c) := invoke c .ok

section Heartbeats

variable (isolatedDeviceUuid : String → String → String) (cloneIsolation : Bool)

def resolveDeviceUuid (uuid id : String) : Handler String := do
  if cloneIsolation then
    let isolated := isolatedDeviceUuid uuid id
    match ← ask (.findPeer isolated) with
    | some _ => pure isolated
    | none =>
      let legacy ← ask (.findPeer uuid)
      pure (if legacy.any (·.id = id) then uuid else isolated)
  else pure uuid

def deletedBefore (data : HeartbeatDto) : Handler Bool := do
  if cloneIsolation then
    let legacyTombstone ← ask (.findTombstone data.uuid)
    pure (legacyTombstone.any (·.deviceId = data.id))
  else pure false

/-- The connections of a device that was just saved. -/
def handConns (uuid : String) (beat : Beat) : Handler Unit :=
  if beat.conns.isSome then ask (.bufferConns uuid beat) else pure ()

/-- The heartbeat is stamped before its row is saved. -/
def register (uuid : String) (data : HeartbeatDto) : Handler Unit := do
  match ← ask (.findPeer uuid) with
  | some _ => ask (.bufferHeartbeat uuid data)
  | none =>
    match ← ask (.findTombstone uuid) with
    | some _ => pure ()
    | none =>
      let now ← ask .now
      let beat := data.beat now
      invoke (.savePeer uuid beat) fun reply ↦ reply
      handConns uuid beat

def handleHeartbeat (data : HeartbeatDto) : Handler Unit := do
  if ← deletedBefore cloneIsolation data then pure ()
  else
    let uuid ← resolveDeviceUuid isolatedDeviceUuid cloneIsolation data.uuid data.id
    register uuid data

def flush : Handler Unit := do
  if ← ask .takeBuffers then ask .endFlush else pure ()

def getActiveConnectionIds (deviceUuid : String) : Handler Conns := do
  match ← ask (.getBufferedConns deviceUuid) with
  | some buffered => pure buffered
  | none => some <$> ask (.findConnections deviceUuid)

/-- The follow-ups at the servers touch nothing of this. -/
def deleteDevice (guid actorGuid : String) : Handler Unit := do
  let (scope, peer) ← invoke (.assertDeviceAccess guid) fun reply ↦ reply
  invoke (.deleteRow guid peer.id actorGuid scope) fun reply ↦ reply

/-- A ban that cannot be lifted leaves the tombstone. -/
def restoreTombstone (uuid : String) : Handler Unit := do
  invoke .assertGlobalDeleteScope fun reply ↦ reply
  match ← ask (.findTombstone uuid) with
  | none => throw (.notFound "Deleted device not found")
  | some _ =>
    if ← ask .liftBan then invoke (.removeTombstone uuid) fun reply ↦ reply else pure ()

def serve : Request → Handler Unit
  | .heartbeat data => handleHeartbeat isolatedDeviceUuid cloneIsolation data
  | .flush => flush
  | .deleteDevice guid actorGuid => deleteDevice guid actorGuid
  | .restoreTombstone uuid => restoreTombstone uuid

def handler (request : Request) : Prog Command Reply Unit :=
  (serve isolatedDeviceUuid cloneIsolation request).start () >>= fun _ ↦ .done ()

def machine (columns : Columns) : Machine Call Command Reply Choice World where
  exec := exec columns
  admits call w p := (∀ event, (call, event) ∉ w.history) ∧
    p = handler isolatedDeviceUuid cloneIsolation call.request

end Heartbeats

end RustdeskConsole.Heartbeats
