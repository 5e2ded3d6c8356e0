import Mathlib.Data.List.Infix
import RustdeskConsole.AddressBooks.Listing
import RustdeskConsole.Collections.Replacement

namespace RustdeskConsole.AddressBooks

open Accounts (Failure)
open Auth (truthy)
open Collections Effects.Guard
open AddressBookPermissionService

structure AddressBookPeer where
  guid : String
  addressBookGuid : String
  deviceId : String
  hash : Option String
  password : Option String
  peerAlias : Option String
  note : Option String
  deriving DecidableEq

structure AddressBookTag where
  guid : String
  addressBookGuid : String
  name : String
  color : ℤ
  deriving DecidableEq

structure AddressBookPeerTag where
  peerGuid : String
  tagGuid : String
  deriving DecidableEq

/-- The columns of a device that the address books show. -/
structure Peer where
  uuid : String
  id : String
  deriving DecidableEq

structure Sysinfo where
  uuid : String
  username : Option String
  hostname : Option String
  os : Option String
  deriving DecidableEq

structure PeerStore extends Store where
  peers : List AddressBookPeer
  tags : List AddressBookTag
  links : List AddressBookPeerTag
  devices : List Peer
  sysinfos : List Sysinfo

inductive TagMatchMode
  | union
  | intersection
  deriving DecidableEq

structure PeersQueryDto extends PaginationDto where
  ab : String
  id : Option String
  peerAlias : Option String
  tags : Option (List String)
  tagMode : TagMatchMode

section Platform

def includes (text : List Char) (part : String) : Bool := decide (part.toList <:+: text)

/-- The part before the first separator. -/
def distributionId (os : String) : List Char :=
  match Replacement.cut " / ".toList os.toList with
  | some (before, _) => trim (String.ofList before).toLower
  | none => trim os.toLower

def mapOsToPlatform (os : Option String) : String :=
  match truthy os with
  | none => ""
  | some os =>
    let id := distributionId os
    let osLower := os.toLower.toList
    if includes id "windows" || id = "win".toList then "Windows"
    else if includes id "mac" || includes id "darwin" || id = "macos".toList || id = "osx".toList then
      "Mac OS"
    else if includes id "android" then "Android"
    else if includes id "linux" then "Linux"
    else if includes osLower "windows" then "Windows"
    else if includes osLower "mac" || includes osLower "darwin" then "Mac OS"
    else if includes osLower "android" then "Android"
    else if includes osLower "linux" then "Linux"
    else ""

end Platform

/-- What is shown of a device in an address book. -/
structure PeerData where
  id : String
  hash : Option String
  password : Option String
  username : String
  hostname : String
  platform : String
  peerAlias : Option String
  tags : List String
  note : Option String
  deriving DecidableEq

namespace PeerStore

variable (s : PeerStore)

def tag? (guid : String) : Option AddressBookTag := s.tags.find? (·.guid = guid)

/-- `tagLinks.map((link) => link.tag.name)`. A foreign key keeps the tag of a link. -/
def tagNames (peer : AddressBookPeer) : List String :=
  (s.links.filter (·.peerGuid = peer.guid)).filterMap fun link ↦
    (s.tag? link.tagGuid).map (·.name)

/-- The later of two rows with one key stays in a map. -/
def device? (uuid : String) : Option Peer := s.devices.findRev? (·.uuid = uuid)

def sysinfo? (uuid : String) : Option Sysinfo := s.sysinfos.findRev? (·.uuid = uuid)

end PeerStore

namespace AddressBookPeerService

variable (like : String → String → Bool) (s : PeerStore)

/-- The join of the links of peers and the tags of the book that have a name. -/
def namedLinks (ab : String) (names : List String) : List (String × String) :=
  s.links.flatMap fun apt ↦
    (s.tags.filter fun t ↦ apt.tagGuid = t.guid && t.addressBookGuid = ab && t.name ∈ names).map
      fun t ↦ (apt.peerGuid, t.name)

/-- `COUNT(DISTINCT t.name)` of the group of a peer. -/
def countNames (rows : List (String × String)) (peerGuid : String) : ℕ :=
  ((rows.filter (·.1 = peerGuid)).map (·.2)).dedup.length

def matchesTags (query : PeersQueryDto) (peer : AddressBookPeer) : Bool :=
  match query.tags with
  | none => true
  | some tags =>
    if tags.isEmpty then true
    else
      let rows := namedLinks s query.ab tags
      match query.tagMode with
      | .intersection => peer.guid ∈
          (rows.map (·.1)).dedup.filter fun peerGuid ↦ countNames rows peerGuid = tags.length
      | .union => peer.guid ∈ rows.map (·.1)

/-- The conditions on the book, the alias and the device. -/
def isCandidate (query : PeersQueryDto) (peer : AddressBookPeer) : Bool :=
  peer.addressBookGuid = query.ab &&
    ((truthy query.peerAlias).all fun text ↦
      peer.peerAlias.any fun column ↦ like column ("%" ++ text ++ "%")) &&
    (truthy query.id).all fun id ↦
      peer.deviceId ∈ (s.devices.filter fun device ↦ like device.id ("%" ++ id ++ "%")).map (·.uuid)

def present (peer : AddressBookPeer) : PeerData :=
  let sysinfo := s.sysinfo? peer.deviceId
  { id := ((s.device? peer.deviceId).map (·.id)).getD ""
    hash := peer.hash
    password := peer.password
    username := (sysinfo.bind (·.username)).getD ""
    hostname := (sysinfo.bind (·.hostname)).getD ""
    platform := mapOsToPlatform (sysinfo.bind (·.os))
    peerAlias := peer.peerAlias
    tags := s.tagNames peer
    note := peer.note }

/-- A page, and how many devices there are on all of them. -/
def getPeers (query : PeersQueryDto) (userId : Option String) :
    Except Failure (ℕ × List PeerData) := do
  let _ ← require (s.addressBook? query.ab) (.notFound "Address book does not exist")
  match truthy userId with
  | some userId => discard (checkAddressBookAccess s.toStore query.ab userId .read)
  | none => pure ()
  let rows := s.peers.filter fun peer ↦ isCandidate like s query peer && matchesTags s query peer
  let page := (rows.drop ((query.current - 1) * query.pageSize)).take query.pageSize
  pure ((rows.map (·.guid)).dedup.length, page.map (present s))

end AddressBookPeerService

end RustdeskConsole.AddressBooks
