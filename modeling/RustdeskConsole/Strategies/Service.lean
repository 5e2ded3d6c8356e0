import RustdeskConsole.Devices.Service
import RustdeskConsole.Effects.Machine

namespace RustdeskConsole.Strategies

open Collections Effects
open Devices (Failure truthy HeartbeatDto SysinfoDto Sysinfo)

abbrev ConfigOptions := List (String × String)

/-- A row of the strategies table; `configOptions` holds what its JSON text
parses to, and nothing if the text is empty. -/
structure Strategy where
  guid : String
  name : String
  note : String
  configOptions : Option ConfigOptions
  updatedAt : ℕ
  deriving DecidableEq

/-- `JSON.parse(strategy.configOptions || '{}')`. -/
def Strategy.options (strategy : Strategy) : ConfigOptions := strategy.configOptions.getD []

structure Peer where
  uuid : String
  id : String
  userGuid : Option String
  deviceGroupGuid : Option String
  strategyGuid : Option String
  note : Option String
  ver : ℤ
  modifiedAt : ℤ
  deriving DecidableEq

structure User where
  guid : String
  username : String
  strategyGuid : Option String
  deriving DecidableEq

structure DeviceGroup where
  guid : String
  name : String
  note : String
  strategyGuid : Option String
  deriving DecidableEq

structure DeviceTombstone where
  uuid : String
  deviceId : String
  deriving DecidableEq

structure CreateStrategyDto where
  name : String
  note : Option String
  configOptions : Option ConfigOptions
  deriving DecidableEq

structure UpdateStrategyDto where
  name : Option String
  note : Option String
  configOptions : Option ConfigOptions
  deriving DecidableEq

/-- A field that is left out stays as it is, `some none` clears it. -/
structure UpdateDeviceDto where
  userName : Option (Option String)
  deviceGroupName : Option (Option String)
  strategyName : Option (Option String)
  note : Option (Option String)
  deriving DecidableEq

inductive TargetType
  | device
  | user
  | deviceGroup
  deriving DecidableEq

/-- `const updateData: Partial<Peer>`. -/
structure PeerUpdate where
  userGuid : Option (Option String)
  deviceGroupGuid : Option (Option String)
  strategyGuid : Option (Option String)
  note : Option (Option String)
  deriving DecidableEq

def PeerUpdate.isEmpty (data : PeerUpdate) : Bool :=
  data.userGuid.isNone && data.deviceGroupGuid.isNone && data.strategyGuid.isNone &&
    data.note.isNone

def PeerUpdate.apply (data : PeerUpdate) (peer : Peer) : Peer :=
  { peer with
    userGuid := data.userGuid.getD peer.userGuid
    deviceGroupGuid := data.deviceGroupGuid.getD peer.deviceGroupGuid
    strategyGuid := data.strategyGuid.getD peer.strategyGuid
    note := data.note.getD peer.note }

structure Database where
  peers : List Peer
  users : List User
  deviceGroups : List DeviceGroup
  strategies : List Strategy
  tombstones : List DeviceTombstone
  sysinfos : List Sysinfo

namespace Database

variable (db : Database)

def peer (uuid : String) : Option Peer := db.peers.find? (·.uuid = uuid)
def user (guid : String) : Option User := db.users.find? (·.guid = guid)
def deviceGroup (guid : String) : Option DeviceGroup := db.deviceGroups.find? (·.guid = guid)
def strategy (guid : String) : Option Strategy := db.strategies.find? (·.guid = guid)
def tombstone (uuid : String) : Option DeviceTombstone := db.tombstones.find? (·.uuid = uuid)
def sysinfo (uuid : String) : Option Sysinfo := db.sysinfos.find? (·.uuid = uuid)

/-- The row of a reference, if it is set and there is such a row. -/
def strategyOf (guid : Option String) : Option Strategy := (truthy guid).bind db.strategy

def updatePeer (uuid : String) (f : Peer → Peer) : Database :=
  { db with peers := db.peers.map fun row ↦ if row.uuid = uuid then f row else row }

/-- The rows that strategies are assigned to, each with its strategy. -/
def targets : TargetType → List (String × Option String)
  | .device => db.peers.map fun row ↦ (row.uuid, row.strategyGuid)
  | .user => db.users.map fun row ↦ (row.guid, row.strategyGuid)
  | .deviceGroup => db.deviceGroups.map fun row ↦ (row.guid, row.strategyGuid)

/-- Write the strategy of the rows of one kind that are selected. -/
def setStrategies (type : TargetType) (selected : String × Option String → Bool)
    (value : Option String) : Database :=
  let write (guid : String) (reference : Option String) : Option String :=
    if selected (guid, reference) then value else reference
  match type with
  | .device =>
    { db with peers := db.peers.map fun row ↦
        { row with strategyGuid := write row.uuid row.strategyGuid } }
  | .user =>
    { db with users := db.users.map fun row ↦
        { row with strategyGuid := write row.guid row.strategyGuid } }
  | .deviceGroup =>
    { db with deviceGroups := db.deviceGroups.map fun row ↦
        { row with strategyGuid := write row.guid row.strategyGuid } }

/-- The references to a strategy are set to null with its row. -/
def removeStrategy (guid : String) : Database :=
  let release (reference : Option String) : Option String := reference.filter (· ≠ guid)
  { db with
    strategies := db.strategies.filter (·.guid ≠ guid)
    peers := db.peers.map fun row ↦ { row with strategyGuid := release row.strategyGuid }
    users := db.users.map fun row ↦ { row with strategyGuid := release row.strategyGuid }
    deviceGroups := db.deviceGroups.map fun row ↦
      { row with strategyGuid := release row.strategyGuid } }

/-- Nothing refers to the row of a user but by its guid. -/
def removeUser (guid : String) : Database := { db with users := db.users.filter (·.guid ≠ guid) }

def removeDeviceGroup (guid : String) : Database :=
  { db with
    deviceGroups := db.deviceGroups.filter (·.guid ≠ guid)
    peers := db.peers.map fun row ↦
      { row with deviceGroupGuid := row.deviceGroupGuid.filter (· ≠ guid) } }

end Database

inductive Event
  | loaded (uuid : String)
  | committed (db : Database)
  | cleared
  | stored (uuid : String)
  | answered (result : Option Strategy)

abbrev History := List (ℕ × Event)

/-- What a heartbeat of a registered device leaves for the next flush. -/
structure BufferedPeerUpdate where
  id : String
  ver : ℤ
  modifiedAt : ℤ

/-- The tables and the memory of the service. -/
structure World where
  db : Database
  peerBuffer : OrderedMap String BufferedPeerUpdate
  strategyObjectCache : OrderedMap String Strategy
  deviceStrategyCache : OrderedMap String (Option String)
  history : History

/-- What the world decides about one command. -/
structure Choice where
  now : ℕ
  uuid : String
  outcome : Except Failure Unit

/-- The targets that were written, and the others with the reason. -/
abbrev Assignment := List String × List (String × String)

def notFoundReason : TargetType → String
  | .device => "Device not found"
  | .user => "User does not exist"
  | .deviceGroup => "Device group not found"

def notBoundReason : TargetType → String
  | .device => "Device is not bound to this strategy"
  | .user => "User is not bound to this strategy"
  | .deviceGroup => "Device group is not bound to this strategy"

namespace World

variable (w : World)

def note (i : ℕ) (event : Event) : World := { w with history := (i, event) :: w.history }

def commit (i : ℕ) (db : Database) : World := { w with db := db }.note i (.committed db)

/-- The transaction of `assignStrategy`, which authorizes the actor first. -/
def assign (i : ℕ) (strategyGuid : String) (type : TargetType) (targets : List String) :
    Except Failure Unit → World × Except Failure Assignment
  | .error failure => (w, .error failure)
  | .ok () =>
    match w.db.strategy strategyGuid with
    | none => (w, .error (.notFound "Strategy not found"))
    | some _ =>
      let found := ((w.db.targets type).map Prod.fst).filter (· ∈ targets)
      (w.commit i (w.db.setStrategies type (fun row ↦ row.1 ∈ targets) (some strategyGuid)),
        .ok (found, (targets.filter (· ∉ found)).map fun guid ↦ (guid, notFoundReason type)))

def unassign (i : ℕ) (strategyGuid : String) (type : TargetType) (targets : List String) :
    Except Failure Unit → World × Except Failure Assignment
  | .error failure => (w, .error failure)
  | .ok () =>
    match w.db.strategy strategyGuid with
    | none => (w, .error (.notFound "Strategy not found"))
    | some _ =>
      let existing := (w.db.targets type).filter (·.1 ∈ targets)
      let assigned := (existing.filter (·.2 = some strategyGuid)).map Prod.fst
      let reason (guid : String) : String :=
        if guid ∈ existing.map Prod.fst then notBoundReason type else notFoundReason type
      (w.commit i (w.db.setStrategies type
          (fun row ↦ decide (row.1 ∈ targets) && row.2 = some strategyGuid) none),
        .ok (assigned, (targets.filter (· ∉ assigned)).map fun guid ↦ (guid, reason guid)))

def insertStrategy (draft : Strategy) (uuid : String) (now : ℕ) :
    World × Option (Except Failure Strategy) :=
  let strategy := { draft with guid := uuid, updatedAt := now }
  if uuid = "" ∨ (w.db.strategy uuid).isSome then (w, none)
  else if w.db.strategies.any (·.name = strategy.name) then
    (w, some (.error (.error "UNIQUE constraint failed")))
  else ({ w with db := { w.db with strategies := strategy :: w.db.strategies } },
    some (.ok strategy))

/-- A save that changes no column leaves the row and its time stamp alone. -/
def saveStrategy (saved : Strategy) (now : ℕ) : World × Except Failure Strategy :=
  let changed := w.db.strategies.any fun row ↦ row.guid = saved.guid &&
    (row.name, row.note, row.configOptions) ≠ (saved.name, saved.note, saved.configOptions)
  let strategy := { saved with updatedAt := if changed then now else saved.updatedAt }
  if w.db.strategies.any fun row ↦ row.name = saved.name && row.guid ≠ saved.guid then
    (w, .error (.error "UNIQUE constraint failed"))
  else ({ w with db := { w.db with strategies := w.db.strategies.map fun row ↦
      if row.guid = saved.guid then strategy else row } }, .ok strategy)

def insertUser (username uuid : String) : World × Option (Except Failure Unit) :=
  if (w.db.user uuid).isSome then (w, none)
  else if w.db.users.any (·.username = username) then
    (w, some (.error (.error "UNIQUE constraint failed")))
  else ({ w with db := { w.db with users := ⟨uuid, username, none⟩ :: w.db.users } }, some (.ok ()))

def saveUser (saved : User) : World × Except Failure Unit :=
  if w.db.users.any fun row ↦ row.username = saved.username && row.guid ≠ saved.guid then
    (w, .error (.error "UNIQUE constraint failed"))
  else ({ w with db := { w.db with users := w.db.users.map fun row ↦
      if row.guid = saved.guid then { row with username := saved.username } else row } }, .ok ())

/-- The transaction of `deleteUser`, which authorizes the actor when it has found the user. -/
def removeUser (guid : String) (refusal : Option Failure) : World × Except Failure Unit :=
  match w.db.user guid, refusal with
  | none, _ => (w, .error (.notFound "User does not exist"))
  | some _, some failure => (w, .error failure)
  | some _, none => ({ w with db := w.db.removeUser guid }, .ok ())

def insertDeviceGroup (name note uuid : String) : World × Option (Except Failure Unit) :=
  if (w.db.deviceGroup uuid).isSome then (w, none)
  else if w.db.deviceGroups.any (·.name = name) then
    (w, some (.error (.error "UNIQUE constraint failed")))
  else ({ w with db := { w.db with
      deviceGroups := ⟨uuid, name, note, none⟩ :: w.db.deviceGroups } }, some (.ok ()))

def saveDeviceGroup (saved : DeviceGroup) : World × Except Failure Unit :=
  if w.db.deviceGroups.any fun row ↦ row.name = saved.name && row.guid ≠ saved.guid then
    (w, .error (.error "UNIQUE constraint failed"))
  else ({ w with db := { w.db with deviceGroups := w.db.deviceGroups.map fun row ↦
      if row.guid = saved.guid then { row with name := saved.name, note := saved.note }
      else row } }, .ok ())

/-- The transaction of `deleteDeviceGroup`, with the devices of the group. -/
def removeDeviceGroup (guid : String) :
    Except Failure Unit → World × Except Failure (List String)
  | .error failure => (w, .error failure)
  | .ok () =>
    match w.db.deviceGroup guid with
    | none => (w, .error (.notFound "Device group does not exist"))
    | some _ => ({ w with db := w.db.removeDeviceGroup guid },
        .ok ((w.db.peers.filter (·.deviceGroupGuid = some guid)).map (·.uuid)))

/-- The one update of `updateDevice`, limited to the groups of its actor. -/
def updateDevice (uuid : String) (data : PeerUpdate) : Except Failure Unit →
    World × Except Failure Unit
  | .error failure => (w, .error failure)
  | .ok () =>
    match w.db.peer uuid with
    | none => (w, .error (.notFound "Device not found"))
    | some _ => ({ w with db := w.db.updatePeer uuid data.apply }, .ok ())

/-- The transaction of `deleteDevice`. -/
def deletePeer (uuid : String) : Except Failure Unit → World × Except Failure Unit
  | .error failure => (w, .error failure)
  | .ok () =>
    match w.db.peer uuid with
    | none => (w, .error (.notFound "Device not found"))
    | some peer => ({ w with db := { w.db with
        peers := w.db.peers.filter (·.uuid ≠ uuid)
        tombstones := ⟨uuid, peer.id⟩ :: w.db.tombstones.filter (·.uuid ≠ uuid) } }, .ok ())

/-- `peerRepository.save` of a device that has no row. -/
def insertPeer (uuid : String) (data : HeartbeatDto) : World :=
  { w with db := { w.db with
    peers := ⟨uuid, data.id, none, none, none, none, data.ver, data.modifiedAt⟩ :: w.db.peers } }

def saveSysinfo (sysinfo : Sysinfo) : World :=
  { w with db := { w.db with
    sysinfos := sysinfo :: w.db.sysinfos.filter (·.uuid ≠ sysinfo.uuid) } }

def flush : World :=
  { w with
    peerBuffer := .empty
    db := w.peerBuffer.entries.foldl (fun db entry ↦ db.updatePeer entry.1 fun row ↦ { row with
      id := entry.2.id, ver := entry.2.ver, modifiedAt := entry.2.modifiedAt }) w.db }

/-- The start of `findStrategyForPeer`, which reads both caches. -/
def cachedStrategy (uuid : String) : Option (Option Strategy) :=
  match w.deviceStrategyCache.get? uuid with
  | none => none
  | some none => some none
  | some (some guid) => (w.strategyObjectCache.get? guid).map some

/-- The end of `findStrategyForPeer`. -/
def cacheStrategy (i : ℕ) (uuid : String) : Option Strategy → World
  | none => { w with
      deviceStrategyCache := w.deviceStrategyCache.set uuid none }.note i (.stored uuid)
  | some strategy => { w with
      strategyObjectCache := w.strategyObjectCache.set strategy.guid strategy
      deviceStrategyCache :=
        w.deviceStrategyCache.set uuid (some strategy.guid) }.note i (.stored uuid)

/-- What `deleteStrategy` does to the caches. -/
def forgetStrategy (guid : String) : World :=
  { w with
    strategyObjectCache := w.strategyObjectCache.erase guid
    deviceStrategyCache := w.deviceStrategyCache.filterMap fun cached ↦
      if cached = some guid then none else some cached }

/-- `if (deviceUuid)`: an empty uuid clears the whole cache. -/
def invalidateDeviceStrategyCache (i : ℕ) (deviceUuid : Option String) : World :=
  match truthy deviceUuid with
  | some uuid => { w with deviceStrategyCache := w.deviceStrategyCache.erase uuid }
  | none => { w with deviceStrategyCache := .empty }.note i .cleared

end World

inductive Command
  | authorize
  | findStrategy (guid : String)
  | findStrategyByName (name : String)
  | insertStrategy (draft : Strategy)
  | saveStrategy (saved : Strategy)
  | removeStrategy (guid : String)
  | findUser (guid : String)
  | findUserByName (username : String)
  | insertUser (username : String)
  | saveUser (saved : User)
  | removeUser (guid : String) (refusal : Option Failure)
  | findDeviceGroup (guid : String)
  | findDeviceGroupByName (name : String)
  | insertDeviceGroup (name note : String)
  | saveDeviceGroup (saved : DeviceGroup)
  | removeDeviceGroup (guid : String)
  | findPeer (uuid : String)
  | findPeers (ids : List String) (deviceGroupGuid : Option String)
  | updatePeer (uuid : String) (data : PeerUpdate)
  | updateDevice (uuid : String) (data : PeerUpdate)
  | deletePeer (uuid : String)
  | insertPeer (uuid : String) (data : HeartbeatDto)
  | bufferPeerUpdate (uuid : String) (data : HeartbeatDto)
  | flush
  | findTombstone (uuid : String)
  | liftBan
  | removeTombstone (uuid : String)
  | findSysinfo (uuid : String)
  | saveSysinfo (sysinfo : Sysinfo)
  | assign (strategyGuid : String) (type : TargetType) (targets : List String)
  | unassign (strategyGuid : String) (type : TargetType) (targets : List String)
  | cachedStrategy (uuid : String)
  | cacheStrategy (uuid : String) (result : Option Strategy)
  | cacheObject (strategy : Strategy)
  | forgetStrategy (guid : String)
  | invalidateDeviceStrategyCache (deviceUuid : Option String)
  | answer (result : Option Strategy)

@[reducible] def Reply : Command → Type
  | .findStrategy _ | .findStrategyByName _ => Option Strategy
  | .findUser _ | .findUserByName _ => Option User
  | .findDeviceGroup _ | .findDeviceGroupByName _ => Option DeviceGroup
  | .findPeer _ => Option Peer
  | .findPeers .. => List Peer
  | .findTombstone _ => Option DeviceTombstone
  | .findSysinfo _ => Option Sysinfo
  | .cachedStrategy _ => Option (Option Strategy)
  | .insertStrategy _ | .saveStrategy _ => Except Failure Strategy
  | .assign .. | .unassign .. => Except Failure Assignment
  | .removeDeviceGroup _ => Except Failure (List String)
  | .authorize | .insertUser _ | .saveUser _ | .removeUser .. | .insertDeviceGroup ..
  | .saveDeviceGroup _ | .updateDevice .. | .deletePeer _ | .liftBan => Except Failure Unit
  | .removeStrategy _ | .updatePeer .. | .insertPeer .. | .bufferPeerUpdate .. | .flush
  | .removeTombstone _ | .saveSysinfo _ | .cacheStrategy .. | .cacheObject _ | .forgetStrategy _
  | .invalidateDeviceStrategyCache _ | .answer _ => Unit

def exec (i : ℕ) : (c : Command) → Choice → World → World × Option (Reply c)
  | .authorize, o, w => (w, some o.outcome)
  | .findStrategy guid, _, w => (w, some (w.db.strategy guid))
  | .findStrategyByName name, _, w => (w, some (w.db.strategies.find? (·.name = name)))
  | .insertStrategy draft, o, w => w.insertStrategy draft o.uuid o.now
  | .saveStrategy saved, o, w => (w.saveStrategy saved o.now).map id some
  | .removeStrategy guid, _, w => ({ w with db := w.db.removeStrategy guid }, some ())
  | .findUser guid, _, w => (w, some (w.db.user guid))
  | .findUserByName username, _, w => (w, some (w.db.users.find? (·.username = username)))
  | .insertUser username, o, w => w.insertUser username o.uuid
  | .saveUser saved, _, w => (w.saveUser saved).map id some
  | .removeUser guid refusal, _, w => (w.removeUser guid refusal).map id some
  | .findDeviceGroup guid, _, w => (w, some (w.db.deviceGroup guid))
  | .findDeviceGroupByName name, _, w => (w, some (w.db.deviceGroups.find? (·.name = name)))
  | .insertDeviceGroup name note, o, w => w.insertDeviceGroup name note o.uuid
  | .saveDeviceGroup saved, _, w => (w.saveDeviceGroup saved).map id some
  | .removeDeviceGroup guid, o, w => (w.removeDeviceGroup guid o.outcome).map id some
  | .findPeer uuid, _, w => (w.note i (.loaded uuid), some (w.db.peer uuid))
  | .findPeers ids deviceGroupGuid, _, w => (w, some (w.db.peers.filter fun row ↦
      row.id ∈ ids && (deviceGroupGuid.isNone || row.deviceGroupGuid = deviceGroupGuid)))
  | .updatePeer uuid data, _, w => ({ w with db := w.db.updatePeer uuid data.apply }, some ())
  | .updateDevice uuid data, o, w => (w.updateDevice uuid data o.outcome).map id some
  | .deletePeer uuid, o, w => (w.deletePeer uuid o.outcome).map id some
  | .insertPeer uuid data, _, w => (w.insertPeer uuid data, some ())
  | .bufferPeerUpdate uuid data, _, w =>
    ({ w with peerBuffer := w.peerBuffer.set uuid ⟨data.id, data.ver, data.modifiedAt⟩ }, some ())
  | .flush, _, w => (w.flush, some ())
  | .findTombstone uuid, _, w => (w, some (w.db.tombstone uuid))
  | .liftBan, o, w => (w, some o.outcome)
  | .removeTombstone uuid, _, w =>
    ({ w with db := { w.db with tombstones := w.db.tombstones.filter (·.uuid ≠ uuid) } }, some ())
  | .findSysinfo uuid, _, w => (w, some (w.db.sysinfo uuid))
  | .saveSysinfo sysinfo, _, w => (w.saveSysinfo sysinfo, some ())
  | .assign strategyGuid type targets, o, w =>
    (w.assign i strategyGuid type targets o.outcome).map id some
  | .unassign strategyGuid type targets, o, w =>
    (w.unassign i strategyGuid type targets o.outcome).map id some
  | .cachedStrategy uuid, _, w => (w, some (w.cachedStrategy uuid))
  | .cacheStrategy uuid result, _, w => (w.cacheStrategy i uuid result, some ())
  | .cacheObject strategy, _, w =>
    ({ w with strategyObjectCache := w.strategyObjectCache.set strategy.guid strategy }, some ())
  | .forgetStrategy guid, _, w => (w.forgetStrategy guid, some ())
  | .invalidateDeviceStrategyCache deviceUuid, _, w =>
    (w.invalidateDeviceStrategyCache i deviceUuid, some ())
  | .answer result, _, w => (w.note i (.answered result), some ())

abbrev Handler := Process Command Reply Unit Failure

namespace Handler

def ask (c : Command) : Handler (Reply c) := invoke c .ok

def assert (condition : Bool) (failure : Failure) : Handler Unit :=
  if condition then pure () else throw failure

def require {α : Type} (value : Option α) (failure : Failure) : Handler α :=
  match value with
  | some a => pure a
  | none => throw failure

def forEach {α : Type} (f : α → Handler Unit) : List α → Handler Unit
  | [] => pure ()
  | a :: as => do
    f a
    forEach f as

end Handler

open Handler

def authorize : Handler Unit := invoke .authorize fun reply ↦ reply

namespace StrategyService

def createStrategy (dto : CreateStrategyDto) : Handler Strategy := do
  let existing ← ask (.findStrategyByName dto.name)
  assert existing.isNone (.error "Strategy name already exists")
  invoke (.insertStrategy ⟨"", dto.name, dto.note.getD "", dto.configOptions, 0⟩) fun reply ↦ reply

/-- A new name must not be another strategy's. -/
def assertName (guid : String) (name : Option String) : Handler Unit :=
  match name with
  | none => pure ()
  | some name => do
    let existing ← ask (.findStrategyByName name)
    assert (existing.all (·.guid = guid)) (.error "Strategy name already exists")

def updateStrategy (guid : String) (dto : UpdateStrategyDto) : Handler Strategy := do
  let found ← ask (.findStrategy guid)
  let strategy ← require found (.notFound "Strategy not found")
  assertName guid dto.name
  let saved ← invoke (.saveStrategy { strategy with
    name := dto.name.getD strategy.name
    note := dto.note.getD strategy.note
    configOptions := dto.configOptions.or strategy.configOptions }) fun reply ↦ reply
  ask (.cacheObject saved)
  pure saved

def deleteStrategy (guid : String) : Handler Unit := do
  let found ← ask (.findStrategy guid)
  let _ ← require found (.notFound "Strategy not found")
  ask (.removeStrategy guid)
  ask (.forgetStrategy guid)

def assignStrategy (strategyGuid : String) (type : TargetType) (targets : List String) :
    Handler Assignment := do
  let assignment ← invoke (.assign strategyGuid type targets.eraseDups) fun reply ↦ reply
  ask (.invalidateDeviceStrategyCache none)
  pure assignment

def unassignStrategy (strategyGuid : String) (type : TargetType) (targets : List String) :
    Handler Assignment := do
  let assignment ← invoke (.unassign strategyGuid type targets.eraseDups) fun reply ↦ reply
  ask (.invalidateDeviceStrategyCache none)
  pure assignment

/-- The row of a reference that is set. -/
def findStrategyOf (strategyGuid : Option String) : Handler (Option Strategy) :=
  match truthy strategyGuid with
  | some guid => ask (.findStrategy guid)
  | none => pure none

def resolveUserStrategy (userGuid : Option String) : Handler (Option Strategy) :=
  match truthy userGuid with
  | none => pure none
  | some guid => do
    let user ← ask (.findUser guid)
    findStrategyOf (user.bind (·.strategyGuid))

def resolveGroupStrategy (deviceGroupGuid : Option String) : Handler (Option Strategy) :=
  match truthy deviceGroupGuid with
  | none => pure none
  | some guid => do
    let group ← ask (.findDeviceGroup guid)
    findStrategyOf (group.bind (·.strategyGuid))

/-- The result, or else that of the next one. -/
def orElse (result : Option Strategy) (next : Handler (Option Strategy)) :
    Handler (Option Strategy) :=
  match result with
  | some strategy => pure (some strategy)
  | none => next

def resolveStrategyForPeer (peer : Peer) : Handler (Option Strategy) := do
  let own ← findStrategyOf peer.strategyGuid
  orElse own do
    let users ← resolveUserStrategy peer.userGuid
    orElse users (resolveGroupStrategy peer.deviceGroupGuid)

def resolveAndCache (peer : Peer) : Handler (Option Strategy) := do
  let result ← resolveStrategyForPeer peer
  ask (.cacheStrategy peer.uuid result)
  pure result

def findStrategyForPeer (peer : Peer) : Handler (Option Strategy) := do
  let cached ← ask (.cachedStrategy peer.uuid)
  match cached with
  | some result => pure result
  | none => resolveAndCache peer

def findStrategyForDevice (deviceUuid : String) : Handler (Option Strategy) := do
  let peer ← ask (.findPeer deviceUuid)
  match peer with
  | none => pure none
  | some peer => findStrategyForPeer peer

end StrategyService

namespace DeviceGroupService

def createDeviceGroup (name : String) (note : Option String) : Handler Unit := do
  authorize
  let existing ← ask (.findDeviceGroupByName name)
  assert existing.isNone (.error "Device group name already exists")
  invoke (.insertDeviceGroup name (note.getD "")) fun reply ↦ reply

def findGroup (guid : String) : Handler DeviceGroup := do
  let found ← ask (.findDeviceGroup guid)
  require found (.notFound "Device group does not exist")

def assertName (guid : String) (name : Option String) : Handler Unit :=
  match name with
  | none => pure ()
  | some name => do
    let existing ← ask (.findDeviceGroupByName name)
    assert (existing.all (·.guid = guid)) (.error "Device group name already exists")

def updateDeviceGroup (guid : String) (name note : Option String) : Handler Unit := do
  authorize
  let deviceGroup ← findGroup guid
  assertName guid name
  invoke (.saveDeviceGroup { deviceGroup with
    name := name.getD deviceGroup.name
    note := note.getD deviceGroup.note }) fun reply ↦ reply

def deleteDeviceGroup (guid : String) : Handler Unit := do
  authorize
  let affectedUuids ← invoke (.removeDeviceGroup guid) fun reply ↦ reply
  forEach (fun uuid ↦ ask (.invalidateDeviceStrategyCache (some uuid))) affectedUuids

/-- A device moves to a group, or out of one. -/
def moveDevice (deviceGroupGuid : Option String) (peer : Peer) : Handler Unit := do
  ask (.updatePeer peer.uuid ⟨none, some deviceGroupGuid, none, none⟩)
  ask (.invalidateDeviceStrategyCache (some peer.uuid))

def addDevicesToGroup (guid : String) (deviceIds : List String) : Handler Unit := do
  authorize
  let _ ← findGroup guid
  let peers ← ask (.findPeers deviceIds none)
  assert (!peers.isEmpty) (.notFound "Device does not exist")
  forEach (moveDevice (some guid)) peers

def removeDevicesFromGroup (guid : String) (deviceIds : List String) : Handler Unit := do
  authorize
  let _ ← findGroup guid
  let peers ← ask (.findPeers deviceIds (some guid))
  assert (!peers.isEmpty) (.notFound "Device does not exist or is not in this device group")
  forEach (moveDevice none) peers

/-- What a name in the dto refers to: nothing if it is left out or null. -/
def resolveName {α : Type} (name : Option (Option String)) (find : String → Handler (Option α))
    (guid : α → String) (failure : Failure) : Handler (Option (Option String)) :=
  match name with
  | none => pure none
  | some none => pure (some none)
  | some (some name) => do
    let found ← find name
    let row ← require found failure
    pure (some (some (guid row)))

def writeDevice (guid : String) (data : PeerUpdate) : Handler Unit :=
  if data.isEmpty then pure ()
  else do
    invoke (.updateDevice guid data) fun reply ↦ reply
    ask (.invalidateDeviceStrategyCache (some guid))

def updateDevice (guid : String) (dto : UpdateDeviceDto) : Handler Unit := do
  authorize
  let userGuid ← resolveName dto.userName (fun name ↦ ask (.findUserByName name)) (·.guid)
    (.notFound "User does not exist")
  let deviceGroupGuid ← resolveName dto.deviceGroupName
    (fun name ↦ ask (.findDeviceGroupByName name)) (·.guid)
    (.notFound "Device group does not exist")
  let strategyGuid ← resolveName dto.strategyName (fun name ↦ ask (.findStrategyByName name))
    (·.guid) (.notFound "Strategy does not exist")
  writeDevice guid ⟨userGuid, deviceGroupGuid, strategyGuid, dto.note⟩

/-- What follows at the servers is no part of this model. -/
def deleteDevice (guid : String) : Handler Unit := do
  authorize
  invoke (.deletePeer guid) fun reply ↦ reply

def restoreTombstone (uuid : String) : Handler Unit := do
  authorize
  let found ← ask (.findTombstone uuid)
  let _ ← require found (.notFound "Deleted device not found")
  invoke .liftBan fun reply ↦ reply
  ask (.removeTombstone uuid)

end DeviceGroupService

namespace UserService

/-- Of a user only the name is part of this model. -/
def updateUser (guid name : String) : Handler Unit := do
  let found ← ask (.findUser guid)
  let user ← require found (.notFound "User does not exist")
  authorize
  let existing ← ask (.findUserByName name)
  assert (existing.all (·.guid = guid)) (.error "Username already exists")
  invoke (.saveUser { user with username := name }) fun reply ↦ reply

/-- `refusal` is what the transaction fails with, if it does. -/
def deleteUser (guid : String) (refusal : Option Failure) : Handler Unit :=
  invoke (.removeUser guid refusal) fun reply ↦ reply

end UserService

section Reports

variable (isolatedDeviceUuid : String → String → String) (cloneIsolation : Bool)

/-- A key that the console has given out is kept, and so is that of a legacy row. -/
def resolveIsolated (uuid id : String) : Handler String := do
  let existing ← ask (.findPeer (isolatedDeviceUuid uuid id))
  match existing with
  | some _ => pure (isolatedDeviceUuid uuid id)
  | none => do
    let legacy ← ask (.findPeer uuid)
    pure (if legacy.any (·.id = id) then uuid else isolatedDeviceUuid uuid id)

def resolveDeviceUuid (uuid id : String) : Handler String :=
  if cloneIsolation then resolveIsolated isolatedDeviceUuid uuid id else pure uuid

/-- With an id the uuid is resolved, without one it is taken as it is. -/
def resolveSome (uuid : String) (id : Option String) : Handler String :=
  match truthy id with
  | none => pure uuid
  | some id => resolveDeviceUuid isolatedDeviceUuid cloneIsolation uuid id

namespace AuthDeviceService

/-- The device that is to be bound, if the request says which it is. -/
def bindDevice (userGuid deviceUuid : String) (deviceId : Option String) : Handler Unit := do
  let deviceUuid ← resolveSome isolatedDeviceUuid cloneIsolation deviceUuid deviceId
  let peer ← ask (.findPeer deviceUuid)
  match peer with
  | none => pure ()
  | some _ => ask (.updatePeer deviceUuid ⟨some (some userGuid), none, none, none⟩)

def createOrUpdateDevice (userGuid : String) (deviceId deviceUuid : Option String) :
    Handler Unit :=
  match truthy deviceUuid with
  | none => pure ()
  | some deviceUuid =>
    if cloneIsolation && (truthy deviceId).isNone then pure ()
    else bindDevice isolatedDeviceUuid cloneIsolation userGuid deviceUuid deviceId

def releaseDevice (userGuid deviceUuid : String) (deviceId : Option String) : Handler Unit := do
  let deviceUuid ← resolveSome isolatedDeviceUuid cloneIsolation deviceUuid deviceId
  let peer ← ask (.findPeer deviceUuid)
  match peer.filter (·.userGuid = some userGuid) with
  | none => pure ()
  | some _ => ask (.updatePeer deviceUuid ⟨some none, none, none, none⟩)

def unbindDevice (userGuid deviceUuid : String) (deviceId : Option String) : Handler Unit :=
  if cloneIsolation && (truthy deviceId).isNone then pure ()
  else releaseDevice isolatedDeviceUuid cloneIsolation userGuid deviceUuid deviceId

end AuthDeviceService

namespace SysinfoService

def addToDeviceGroup (uuid name : String) : Handler Unit := do
  let deviceGroup ← ask (.findDeviceGroupByName name)
  match deviceGroup with
  | none => pure ()
  | some deviceGroup => do
    let peer ← ask (.findPeer uuid)
    match peer with
    | none => pure ()
    | some _ => ask (.updatePeer uuid ⟨none, some (some deviceGroup.guid), none, none⟩)

def addToPresetGroup (sysinfo : Sysinfo) : Handler Unit :=
  match truthy sysinfo.presetDeviceGroupName with
  | none => pure ()
  | some name => addToDeviceGroup sysinfo.uuid name

/-- A note that is there is kept. -/
def setPresetNote (uuid : String) (presetNote : Option String) : Handler Unit :=
  match truthy presetNote with
  | none => pure ()
  | some presetNote => do
    let peer ← ask (.findPeer uuid)
    match peer.filter fun peer ↦ (truthy peer.note).isNone with
    | none => pure ()
    | some _ => ask (.updatePeer uuid ⟨none, none, none, some (some presetNote)⟩)

/-- The preset address book has no part in this model. -/
def saveReport (uuid : String) (dto : SysinfoDto) : Handler Bool := do
  let existing ← ask (.findSysinfo uuid)
  let sysinfo := Devices.mergeSysinfo uuid dto existing
  ask (.saveSysinfo sysinfo)
  addToPresetGroup sysinfo
  setPresetNote sysinfo.uuid dto.presetNote
  pure true

def report (dto : SysinfoDto) : Handler Bool := do
  let uuid ← resolveSome isolatedDeviceUuid cloneIsolation dto.uuid dto.id
  let peer ← ask (.findPeer uuid)
  match peer with
  | none => pure false
  | some _ => saveReport uuid dto

def createSysinfo (dto : SysinfoDto) : Handler Bool :=
  if cloneIsolation && (truthy dto.id).isNone then pure false
  else report isolatedDeviceUuid cloneIsolation dto

end SysinfoService

namespace HeartbeatService

/-- A strategy as a device is sent it, with its time stamp. -/
abbrev Delivery := ConfigOptions × ℤ

/-- A strategy is sent to a device that does not know one as new. -/
def resolveStrategy (peer : Peer) (clientModifiedAt : ℤ) : Handler (Option Delivery) :=
  tryCatch
    (do
      let strategy ← StrategyService.findStrategyForPeer peer
      pure (match strategy with
        | none => none
        | some strategy =>
          if clientModifiedAt < strategy.updatedAt then
            some (strategy.options, (strategy.updatedAt : ℤ))
          else none))
    fun _ ↦ pure none

def deletedBefore (data : HeartbeatDto) : Handler Bool :=
  if cloneIsolation then do
    let legacyTombstone ← ask (.findTombstone data.uuid)
    pure (legacyTombstone.any (·.deviceId = data.id))
  else pure false

/-- A deleted device is not registered again. -/
def register (uuid : String) (data : HeartbeatDto) : Handler (Option Delivery) := do
  let tombstone ← ask (.findTombstone uuid)
  match tombstone with
  | some _ => pure none
  | none => do
    ask (.insertPeer uuid data)
    pure none

def receive (data : HeartbeatDto) : Handler (Option Delivery) := do
  let uuid ← resolveDeviceUuid isolatedDeviceUuid cloneIsolation data.uuid data.id
  let existingPeer ← ask (.findPeer uuid)
  match existingPeer with
  | none => register uuid data
  | some peer => do
    ask (.bufferPeerUpdate uuid data)
    resolveStrategy peer data.modifiedAt

/-- What the reply sends of a strategy. -/
def handleHeartbeat (data : HeartbeatDto) : Handler (Option Delivery) := do
  let deleted ← deletedBefore cloneIsolation data
  if deleted then pure none else receive isolatedDeviceUuid cloneIsolation data

end HeartbeatService

end Reports

/-- Everything that writes what a resolution reads. -/
inductive Request
  | createStrategy (dto : CreateStrategyDto)
  | updateStrategy (guid : String) (dto : UpdateStrategyDto)
  | deleteStrategy (guid : String)
  | assignStrategy (strategyGuid : String) (type : TargetType) (targets : List String)
  | unassignStrategy (strategyGuid : String) (type : TargetType) (targets : List String)
  | findStrategyForDevice (deviceUuid : String)
  | createDeviceGroup (name : String) (note : Option String)
  | updateDeviceGroup (guid : String) (name note : Option String)
  | deleteDeviceGroup (guid : String)
  | addDevicesToGroup (guid : String) (deviceIds : List String)
  | removeDevicesFromGroup (guid : String) (deviceIds : List String)
  | updateDevice (guid : String) (dto : UpdateDeviceDto)
  | deleteDevice (guid : String)
  | restoreTombstone (uuid : String)
  | createUser (username : String)
  | updateUser (guid name : String)
  | deleteUser (guid : String) (refusal : Option Failure)
  | bindDevice (userGuid : String) (deviceId deviceUuid : Option String)
  | unbindDevice (userGuid deviceUuid : String) (deviceId : Option String)
  | sysinfo (dto : SysinfoDto)
  | heartbeat (data : HeartbeatDto)
  | flush
  deriving DecidableEq

def ignore {α : Type} (handler : Handler α) : Handler Unit := do
  let _ ← handler
  pure ()

/-- A lookup ends when its caller has the answer. -/
def answerLookup (deviceUuid : String) : Handler Unit := do
  let result ← StrategyService.findStrategyForDevice deviceUuid
  ask (.answer result)

section Machine

open StrategyService DeviceGroupService

variable (isolatedDeviceUuid : String → String → String) (cloneIsolation : Bool)

def serve : Request → Handler Unit
  | .createStrategy dto => ignore (createStrategy dto)
  | .updateStrategy guid dto => ignore (updateStrategy guid dto)
  | .deleteStrategy guid => deleteStrategy guid
  | .assignStrategy strategyGuid type targets => ignore (assignStrategy strategyGuid type targets)
  | .unassignStrategy strategyGuid type targets =>
    ignore (unassignStrategy strategyGuid type targets)
  | .findStrategyForDevice deviceUuid => answerLookup deviceUuid
  | .createDeviceGroup name note => createDeviceGroup name note
  | .updateDeviceGroup guid name note => updateDeviceGroup guid name note
  | .deleteDeviceGroup guid => deleteDeviceGroup guid
  | .addDevicesToGroup guid deviceIds => addDevicesToGroup guid deviceIds
  | .removeDevicesFromGroup guid deviceIds => removeDevicesFromGroup guid deviceIds
  | .updateDevice guid dto => updateDevice guid dto
  | .deleteDevice guid => deleteDevice guid
  | .restoreTombstone uuid => restoreTombstone uuid
  | .createUser username => invoke (.insertUser username) fun reply ↦ reply
  | .updateUser guid name => UserService.updateUser guid name
  | .deleteUser guid refusal => UserService.deleteUser guid refusal
  | .bindDevice userGuid deviceId deviceUuid =>
    AuthDeviceService.createOrUpdateDevice isolatedDeviceUuid cloneIsolation userGuid deviceId
      deviceUuid
  | .unbindDevice userGuid deviceUuid deviceId =>
    AuthDeviceService.unbindDevice isolatedDeviceUuid cloneIsolation userGuid deviceUuid deviceId
  | .sysinfo dto => ignore (SysinfoService.createSysinfo isolatedDeviceUuid cloneIsolation dto)
  | .heartbeat data =>
    ignore (HeartbeatService.handleHeartbeat isolatedDeviceUuid cloneIsolation data)
  | .flush => ask .flush

def handler (request : Request) : Prog Command Reply Unit :=
  (serve isolatedDeviceUuid cloneIsolation request).start () >>= fun _ ↦ .done ()

/-- Any number of the admitted requests at once, told apart by their numbers. -/
def machine (admitted : Request → Bool) : Machine ℕ Command Reply Choice World where
  exec := exec
  admits i w p := (∀ event, (i, event) ∉ w.history) ∧ ∃ request, admitted request = true ∧
    p = handler isolatedDeviceUuid cloneIsolation request

end Machine

end RustdeskConsole.Strategies
