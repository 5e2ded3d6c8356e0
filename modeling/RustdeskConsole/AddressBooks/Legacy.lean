import RustdeskConsole.AddressBooks.Peers
import RustdeskConsole.Collections.OrderedMap
import RustdeskConsole.Effects.Outcomes

namespace RustdeskConsole.AddressBooks.AddressBookLegacyService

open Accounts (Failure)
open Auth (truthy)
open Collections Effects Effects.Checked

structure PeerPayload where
  id : String
  hash : Option String
  peerAlias : Option String
  tags : List String

/-- The text of `tag_colors`, and what it parses to. -/
inductive ColorsText
  | missing
  | malformed
  | null
  | object (colors : OrderedMap String ℤ)

structure Payload where
  tags : List String
  peers : List PeerPayload
  tagColors : ColorsText

/-- The body of a request, and what it parses to. A part that is no list counts as
an empty one, or the body is `torn`: reading it throws when all before it is done. -/
inductive Data
  | empty
  | malformed
  | null
  | json (payload : Payload)
  | torn (payload : Payload) (message : String)

structure LegacyPeer where
  id : String
  hash : String
  username : String
  hostname : String
  platform : String
  peerAlias : String
  tags : List String
  deriving DecidableEq

structure LegacyAddressBook where
  licensedDevices : ℕ
  tags : List String
  peers : List LegacyPeer
  tagColors : OrderedMap String ℤ

/-- The database, with the numbers of uuids drawn and of queries made. -/
structure State where
  store : PeerStore
  drawn : ℕ
  asked : ℕ

/-- The uuids that are drawn, the queries that fail, the order of the devices by
heartbeat, what the database stores where a color is a member of
`Object.prototype`, and whether a rollback takes back a device made meanwhile. -/
structure Environment where
  uuid : ℕ → String
  failure : ℕ → Option String
  byHeartbeat : List Peer → List Peer
  perm : ∀ devices, (byHeartbeat devices).Perm devices
  memberColor : String → Option ℤ
  oneConnection : Bool

abbrev Service := EStateM Failure State

/-- What every object has from `Object.prototype`. -/
def inheritedMembers : List String :=
  ["__defineGetter__", "__defineSetter__", "hasOwnProperty", "__lookupGetter__",
    "__lookupSetter__", "isPrototypeOf", "propertyIsEnumerable", "toString", "valueOf",
    "toLocaleString", "constructor", "__proto__"]

def dangerousProperties : List String := ["__proto__", "constructor", "prototype"]

section Devices

def isOctet (text : List Char) : Bool :=
  1 ≤ text.length && text.length ≤ 3 && text.all Char.isDigit

/-- `\d{1,3}\.\d{1,3}\.\d{1,3}\.\d{1,3}(:\d+)?`. -/
def isIpv4 (text : List Char) : Bool :=
  match text.splitOn '.' with
  | [a, b, c, rest] => isOctet a && isOctet b && isOctet c &&
    match rest.splitOn ':' with
    | [d] => isOctet d
    | [d, port] => isOctet d && !port.isEmpty && port.all Char.isDigit
    | _ => false
  | _ => false

def isIpDevice (id : String) : Bool := id.toList.head? = some '[' || isIpv4 id.toList

end Devices

section Service

variable (env : Environment)

/-- Every query may fail. -/
def ask : Service Unit := do
  let s ← get
  modify fun s ↦ { s with asked := s.asked + 1 }
  match env.failure s.asked with
  | some message => throw (.internal message)
  | none => pure ()

def write (change : PeerStore → PeerStore) : Service Unit := do
  ask env
  modify fun s ↦ { s with store := change s.store }

def draw : Service String := do
  let s ← get
  modify fun s ↦ { s with drawn := s.drawn + 1 }
  pure (env.uuid s.drawn)

def personalAddressBook (userId : String) : Service AddressBook := do
  ask env
  let s ← get
  match s.store.addressBooks.find? fun book ↦ book.owner = userId && book.isPersonal with
  | some book => pure book
  | none =>
    let guid ← draw env
    let book : AddressBook := ⟨guid, userId, true, false, some "Personal", none, none⟩
    write env fun store ↦ { store with addressBooks := store.addressBooks ++ [book] }
    pure book

def tagsOf (store : PeerStore) (addressBookGuid : String) : List AddressBookTag :=
  store.tags.filter (·.addressBookGuid = addressBookGuid)

def peersOf (store : PeerStore) (addressBookGuid : String) : List AddressBookPeer :=
  store.peers.filter (·.addressBookGuid = addressBookGuid)

section Get

def showPeer (store : PeerStore) (peer : AddressBookPeer) : LegacyPeer :=
  let sysinfo := store.sysinfo? peer.deviceId
  { id := ((store.device? peer.deviceId).map (·.id)).getD ""
    hash := peer.hash.getD ""
    username := (sysinfo.bind (·.username)).getD ""
    hostname := (sysinfo.bind (·.hostname)).getD ""
    platform := mapOsToPlatform (sysinfo.bind (·.os))
    peerAlias := peer.peerAlias.getD ""
    tags := store.tagNames peer }

/-- `tagColors[tag.name] = tag.color`; an object keeps its prototype. -/
def showColors (tags : List AddressBookTag) : OrderedMap String ℤ :=
  tags.foldl (fun colors tag ↦
    if tag.name = "__proto__" then colors else colors.set tag.name tag.color) .empty

/-- The text `null` stands for an empty book. -/
def show? (store : PeerStore) (addressBookGuid : String) : Option LegacyAddressBook :=
  let tags := tagsOf store addressBookGuid
  let peers := peersOf store addressBookGuid
  if tags.isEmpty && peers.isEmpty then none
  else some ⟨100, tags.map (·.name), peers.map (showPeer store), showColors tags⟩

def getLegacyAddressBook (userId : String) : Service (Option LegacyAddressBook) := do
  let book ← personalAddressBook env userId
  ask env
  ask env
  let s ← get
  if !(peersOf s.store book.guid).isEmpty then
    ask env
    ask env
  pure (show? s.store book.guid)

end Get

section Update

def ColorsText.parse : ColorsText → Option (OrderedMap String ℤ)
  | .missing | .malformed => some .empty
  | .null => none
  | .object colors => some colors

/-- `tagColors[tagName] || 0`. -/
def storedColor (colors : ColorsText) (tagName : String) : Except Failure ℤ :=
  match colors.parse with
  | none => .error (.internal "Cannot read properties of null")
  | some colors =>
    match colors.get? tagName with
    | some color => .ok color
    | none =>
      if tagName ∈ inheritedMembers then
        match env.memberColor tagName with
        | some color => .ok color
        | none => .error (.internal "Query failed")
      else .ok 0

def deleteAll (addressBookGuid : String) : Service Unit := do
  ask env
  let s ← get
  let existing := (peersOf s.store addressBookGuid).map (·.guid)
  if !existing.isEmpty then
    write env fun store ↦ { store with links := store.links.filter (·.peerGuid ∉ existing) }
  let s ← get
  let tagGuids := (tagsOf s.store addressBookGuid).map (·.guid)
  assert (s.store.links.all (·.tagGuid ∉ tagGuids)) (.internal "FOREIGN KEY constraint failed")
  write env fun store ↦
    { store with tags := store.tags.filter (·.addressBookGuid ≠ addressBookGuid) }
  write env fun store ↦
    { store with peers := store.peers.filter (·.addressBookGuid ≠ addressBookGuid) }

def createTags (addressBookGuid : String) (colors : ColorsText) :
    List String → OrderedMap String String → Service (OrderedMap String String)
  | [], tagNameToGuid => pure tagNameToGuid
  | tagName :: tags, tagNameToGuid =>
    if tagName ∈ dangerousProperties then createTags addressBookGuid colors tags tagNameToGuid
    else do
      let tagGuid ← draw env
      let color ← reply (storedColor env colors tagName)
      write env fun store ↦
        { store with tags := store.tags ++ [⟨tagGuid, addressBookGuid, tagName, color⟩] }
      createTags addressBookGuid colors tags (tagNameToGuid.set tagName tagGuid)

/-- A device that is not there and has no IP address is not found. -/
def findOrCreatePeer (id : String) : Service (Option Peer) := do
  ask env
  let s ← get
  match (env.byHeartbeat s.store.devices).find? (·.id = id) with
  | some device => pure (some device)
  | none =>
    if isIpDevice id then
      let uuid ← draw env
      let device : Peer := ⟨uuid, id⟩
      write env fun store ↦ { store with devices := store.devices ++ [device] }
      pure (some device)
    else pure none

/-- Saving a link that is there already changes nothing. -/
def addLink (link : AddressBookPeerTag) (store : PeerStore) : PeerStore :=
  if link ∈ store.links then store else { store with links := store.links ++ [link] }

/-- A name that is no own property gives the inherited member, if there is one.
No tag has it for its guid. -/
def createLinks (tagNameToGuid : OrderedMap String String) (peerGuid : String) :
    List String → Service Unit
  | [] => pure ()
  | tagName :: tags => do
    match tagNameToGuid.get? tagName with
    | some tagGuid => write env (addLink ⟨peerGuid, tagGuid⟩)
    | none =>
      if tagName ∈ inheritedMembers then throw (.internal "Query failed")
    createLinks tagNameToGuid peerGuid tags

def createPeer (addressBookGuid : String) (tagNameToGuid : OrderedMap String String)
    (peerData : PeerPayload) : Service Unit := do
  match ← findOrCreatePeer env peerData.id with
  | none => pure ()
  | some device =>
    let peerGuid ← draw env
    write env fun store ↦ { store with peers := store.peers ++ [⟨peerGuid, addressBookGuid,
      device.uuid, some (peerData.hash.getD ""), none, some (peerData.peerAlias.getD ""), none⟩] }
    createLinks env tagNameToGuid peerGuid peerData.tags

def createPeers (addressBookGuid : String) (tagNameToGuid : OrderedMap String String) :
    List PeerPayload → Service Unit
  | [] => pure ()
  | peerData :: peers => do
    createPeer env addressBookGuid tagNameToGuid peerData
    createPeers addressBookGuid tagNameToGuid peers

/-- What a rollback takes back. Devices are saved past the transaction. -/
def rollback (before after : PeerStore) : PeerStore :=
  { before with devices := if env.oneConnection then before.devices else after.devices }

def transaction {α : Type} (body : Service α) : Service α := do
  let before ← get
  let work : Service α := do
    let result ← body
    ask env
    pure result
  tryCatch work fun failure ↦ do
    modify fun s ↦ { s with store := rollback env before.store s.store }
    throw failure

def replaceAll (addressBookGuid : String) (payload : Payload) : Service Unit := do
  deleteAll env addressBookGuid
  let tagNameToGuid ← createTags env addressBookGuid payload.tagColors payload.tags .empty
  createPeers env addressBookGuid tagNameToGuid payload.peers

def updateLegacyAddressBook (userId : String) (data : Data) : Service Unit :=
  match data with
  | .empty => pure ()
  | .malformed => throw (.badRequest "Invalid JSON data")
  | .null => do
    let _ ← personalAddressBook env userId
    throw (.internal "Cannot read properties of null")
  | .json payload => do
    let book ← personalAddressBook env userId
    transaction env (replaceAll env book.guid payload)
  | .torn payload message => do
    let book ← personalAddressBook env userId
    transaction env do
      replaceAll env book.guid payload
      throw (.internal message)

end Update

end Service

end RustdeskConsole.AddressBooks.AddressBookLegacyService
