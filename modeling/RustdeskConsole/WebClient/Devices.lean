import RustdeskConsole.Auth.Entities
import RustdeskConsole.Collections.Rows
import RustdeskConsole.Effects.Outcomes
import RustdeskConsole.Rbac.Authorization

namespace RustdeskConsole.WebClient

open Auth (truthy UserToken)
open Collections Effects.Guard
open Rbac (PermissionScope DeviceGroup requirePermission computePermissionScope)

inductive PeerStatus
  | disabled
  | active
  deriving DecidableEq

structure Peer where
  uuid : String
  id : String
  userGuid : Option String
  deviceGroupGuid : Option String
  strategyGuid : Option String
  note : Option String
  status : PeerStatus
  ver : ℕ
  lastHeartbeat : Option ℕ
  deriving DecidableEq

structure Sysinfo where
  uuid : String
  hostname : Option String
  username : Option String
  os : Option String
  cpu : Option String
  memory : Option String

structure Strategy where
  guid : String
  name : String

/-- The tables that the listing and the session check read. `usernames` are the
guids and names of the users. -/
structure Store where
  rbac : Rbac.Store
  tokens : List UserToken
  peers : List Peer
  sysinfos : List Sysinfo
  usernames : List (String × String)
  strategies : List Strategy
  deviceGroupUserPermissions : List (String × String)
  userUserPermissions : List (String × String)

/-- How a database compares strings, and the order in which it returns rows that
are sorted by `id`. -/
structure Database where
  same : String → String → Bool
  refl : ∀ a, same a a = true
  symm : ∀ a b, same a b = true → same b a = true
  trans : ∀ a b c, same a b = true → same b c = true → same a c = true
  like : String → String → Bool
  order : List Peer → List Peer
  perm : ∀ peers, (order peers).Perm peers

/-- The keys and references that the entities declare. A guid is generated. -/
structure Store.Consistent (database : Database) (s : Store) : Prop where
  uuids : s.peers.Pairwise fun p q ↦ database.same p.uuid q.uuid = false
  groups : s.rbac.deviceGroups.Pairwise fun g h ↦ database.same g.guid h.guid = false
  guid : ∀ group ∈ s.rbac.deviceGroups, group.guid ≠ ""
  peerGroup : ∀ peer ∈ s.peers, ∀ guid, peer.deviceGroupGuid = some guid →
    guid ∈ s.rbac.deviceGroups.map DeviceGroup.guid
  assignmentGroup : ∀ row ∈ s.rbac.assignmentGroups,
    row.deviceGroupGuid ∈ s.rbac.deviceGroups.map DeviceGroup.guid

structure PeerQueryDto where
  current : ℕ
  pageSize : ℕ
  id : Option String
  status : Option PeerStatus
  isOnline : Option Bool
  userName : Option String
  deviceGroupGuid : Option String
  deviceGroupName : Option String
  os : Option String

structure DeviceInfo where
  deviceName : String
  username : String
  os : String
  version : String
  cpu : String
  memory : String
  ip : String

structure PeerRow where
  id : String
  guid : String
  status : PeerStatus
  isOnline : Bool
  lastOnline : Option ℕ
  user : String
  userName : String
  note : String
  deviceGroupName : String
  strategyName : String
  info : DeviceInfo

structure PeerPage where
  data : List PeerRow
  total : ℕ

section Listing

variable (database : Database) (s : Store) (now : ℕ)

def oneMinuteAgo : ℤ := now - 60 * 1000

def webClientSelects (scope : PermissionScope) (peer : Peer) : Bool :=
  peer.status = .active &&
    !(s.peers.any fun duplicate ↦
      database.same duplicate.id peer.id && !database.same duplicate.uuid peer.uuid) &&
    (scope.global || peer.deviceGroupGuid.any fun guid ↦
      scope.deviceGroupGuids.any (database.same guid))

def legacySelects (userGuid : String) (peer : Peer) : Bool :=
  peer.userGuid.any (database.same userGuid) ||
    (s.deviceGroupUserPermissions.any fun row ↦
      database.same row.1 userGuid && peer.deviceGroupGuid.any (database.same row.2)) ||
    s.userUserPermissions.any fun row ↦
      database.same row.1 userGuid && peer.userGuid.any (database.same row.2)

def contains? (text : String) (value : String) : Bool := database.like ("%" ++ text ++ "%") value

def deviceGroupOf (peer : Peer) : Option DeviceGroup :=
  peer.deviceGroupGuid.bind fun guid ↦
    s.rbac.deviceGroups.find? fun group ↦ database.same group.guid guid

def isOnline (peer : Peer) : Bool :=
  peer.lastHeartbeat.any fun time ↦ oneMinuteAgo now < (time : ℤ)

/-- The conditions of the query itself. -/
def filters (query : PeerQueryDto) (peer : Peer) : Bool :=
  (truthy query.id).all (contains? database · peer.id) &&
    query.status.all (peer.status = ·) &&
    query.isOnline.all (isOnline now peer = ·) &&
    ((truthy query.userName).all fun name ↦ s.usernames.any fun user ↦
      peer.userGuid.any (database.same user.1) && contains? database name user.2) &&
    ((truthy query.deviceGroupGuid).all fun guid ↦
      peer.deviceGroupGuid.any (database.same guid)) &&
    ((truthy query.deviceGroupName).all fun name ↦ (truthy query.deviceGroupGuid).isSome ||
      (deviceGroupOf database s peer).any fun group ↦ contains? database name group.name) &&
    (truthy query.os).all fun os ↦ s.sysinfos.any fun row ↦
      database.same row.uuid peer.uuid && row.os.any (contains? database os)

def formatVersion (ver : ℕ) : String :=
  if ver = 0 then ""
  else
    let version := toString (ver / 1000000) ++ "." ++ toString (ver % 1000000 / 1000) ++ "." ++
      toString (ver % 1000 / 10)
    if 0 < ver % 10 then version ++ "-" ++ toString (ver % 10) else version

def present (peer : Peer) : PeerRow :=
  let sysinfo := s.sysinfos.find? (·.uuid = peer.uuid)
  let user := (truthy peer.userGuid).bind fun guid ↦ s.usernames.find? (·.1 = guid)
  let strategy := (truthy peer.strategyGuid).bind fun guid ↦ s.strategies.find? (·.guid = guid)
  { id := peer.id
    guid := peer.uuid
    status := peer.status
    isOnline := isOnline now peer
    lastOnline := peer.lastHeartbeat
    user := peer.userGuid.getD ""
    userName := (user.map Prod.snd).getD ""
    note := peer.note.getD ""
    deviceGroupName := ((deviceGroupOf database s peer).map DeviceGroup.name).getD ""
    strategyName := (strategy.map Strategy.name).getD ""
    info :=
      { deviceName := (sysinfo.bind Sysinfo.hostname).getD ""
        username := (sysinfo.bind Sysinfo.username).getD ""
        os := (sysinfo.bind Sysinfo.os).getD ""
        version := formatVersion peer.ver
        cpu := (sysinfo.bind Sysinfo.cpu).getD ""
        memory := (sysinfo.bind Sysinfo.memory).getD ""
        ip := "" } }

def getAccessiblePeers (userGuid : String) (query : PeerQueryDto) (isAdmin : Bool)
    (webClientScope : Option PermissionScope) : PeerPage :=
  let page (selects : Peer → Bool) : PeerPage :=
    let selected := s.peers.filter fun peer ↦ selects peer && filters database s now query peer
    let skip := (query.current - 1) * query.pageSize
    ⟨(((database.order selected).drop skip).take query.pageSize).map (present database s now),
      selected.length⟩
  match webClientScope with
  | some scope =>
    if !scope.global && scope.deviceGroupGuids.isEmpty then ⟨[], 0⟩
    else page (webClientSelects database s scope)
  | none => page fun peer ↦ isAdmin || legacySelects database s userGuid peer

end Listing

section Authorization

structure WebClientActor where
  id : String
  jti : String

inductive WebClientKind
  | desktop
  | file
  deriving DecidableEq

variable (database : Database) (s : Store) (now : ℕ)

def requireScope (actorGuid : String) : Except Rbac.Failure PermissionScope :=
  requirePermission s.rbac actorGuid "web_client.connect"

def validateLogin (actor : WebClientActor) : Except Rbac.Failure ℕ := do
  refuseIf (actor.id = "" || actor.jti = "") (.unauthorized "Login session is unavailable")
  let token := s.tokens.find? fun token ↦
    database.same token.userGuid actor.id && database.same token.jti actor.jti && !token.isRevoked
  let expiresAt := (token.map UserToken.expiresAt).getD 0
  refuseIf (expiresAt ≤ now) (.unauthorized "Login session has expired or been revoked")
  pure expiresAt

def contains (scope : PermissionScope) (peer : Peer) : Bool :=
  scope.global || (truthy peer.deviceGroupGuid).any (scope.deviceGroupGuids.contains ·)

def unauthorizedTarget : Rbac.Failure := .forbidden "Web client target is not authorized"

def validate (actor : WebClientActor) (targetId : String) (kind : WebClientKind)
    (peerUuid : Option String) : Except Rbac.Failure (Peer × ℕ) := do
  let expiresAt ← validateLogin database s now actor
  let scope ← requireScope s actor.id
  let candidates := (s.peers.filter fun peer ↦ database.same peer.id targetId).take 2
  match candidates with
  | [peer] =>
    refuseIf (peer.id ≠ targetId || peer.status ≠ .active ||
        (truthy peerUuid).any (peer.uuid ≠ ·) || !contains scope peer) unauthorizedTarget
    if kind = .file then
      let files ← requirePermission s.rbac actor.id "web_client.file_transfer"
      refuseIf (!contains files peer) unauthorizedTarget
    pure (peer, expiresAt)
  | _ => throw unauthorizedTarget

end Authorization

section Agreement

variable {database : Database} {s : Store} {now expiresAt : ℕ} {actor : WebClientActor}
  {scope : PermissionScope} {query : PeerQueryDto} {p q : Peer}

/-- No condition but that of the scope. -/
structure PeerQueryDto.Unfiltered (query : PeerQueryDto) : Prop where
  id : truthy query.id = none
  status : query.status = none
  isOnline : query.isOnline = none
  userName : truthy query.userName = none
  deviceGroupGuid : truthy query.deviceGroupGuid = none
  deviceGroupName : truthy query.deviceGroupName = none
  os : truthy query.os = none

def PeerQueryDto.at (query : PeerQueryDto) (current : ℕ) : PeerQueryDto :=
  { query with current := current }

theorem filters_unfiltered (h : query.Unfiltered) : filters database s now query p = true := by
  simp [filters, h.id, h.status, h.isOnline, h.userName, h.deviceGroupGuid, h.deviceGroupName, h.os]

/-- Rows that the database tells apart are equal if it does not. -/
theorem Database.ext_of_pairwise {α : Type} {key : α → String} {rows : List α} {a b : α}
    (h : rows.Pairwise fun a b ↦ database.same (key a) (key b) = false) (ha : a ∈ rows)
    (hb : b ∈ rows) (hs : database.same (key a) (key b) = true) : a = b := by
  induction rows with
  | nil => cases ha
  | cons row rows ih =>
    obtain ⟨hrow, hrows⟩ := List.pairwise_cons.mp h
    rcases List.mem_cons.mp ha with rfl | ha'
    · rcases List.mem_cons.mp hb with rfl | hb'
      · rfl
      · rw [hrow b hb'] at hs
        cases hs
    · rcases List.mem_cons.mp hb with rfl | hb'
      · have hsymm := database.symm _ _ hs
        rw [hrow a ha'] at hsymm
        cases hsymm
      · exact ih hrows ha' hb'

theorem take_two_eq_singleton {α : Type} {rows : List α} {a : α} (hd : rows.Nodup)
    (hm : a ∈ rows) : rows.take 2 = [a] ↔ ∀ b ∈ rows, b = a := by
  match rows with
  | [] => cases hm
  | [x] => simp
  | x :: y :: rows =>
    refine iff_of_false (by simp) fun h ↦ ?_
    have hx : x = a := h x (.head _)
    have hy : y = a := h y (.tail _ (.head _))
    simp [hx, hy] at hd

theorem Store.Consistent.group_ext (hc : s.Consistent database) {g g' : String}
    (hg : g ∈ s.rbac.deviceGroups.map DeviceGroup.guid)
    (hg' : g' ∈ s.rbac.deviceGroups.map DeviceGroup.guid) (h : database.same g g' = true) :
    g = g' := by
  obtain ⟨group, hm, rfl⟩ := List.mem_map.mp hg
  obtain ⟨group', hm', rfl⟩ := List.mem_map.mp hg'
  exact congrArg DeviceGroup.guid (Database.ext_of_pairwise hc.groups hm hm' h)

/-- A scope is made of device groups that are there. -/
theorem scope_groups (hc : s.Consistent database)
    (hs : computePermissionScope s.rbac actor.id "web_client.connect" = .ok scope) :
    ∀ g ∈ scope.deviceGroupGuids, g ∈ s.rbac.deviceGroups.map DeviceGroup.guid := by
  obtain ⟨user, -, h⟩ := bind_eq_ok.mp hs
  split at h
  · rw [← pure_eq_ok.mp h]
    intro g hg
    cases hg
  · rw [← pure_eq_ok.mp h, Rbac.roleScope]
    dsimp only
    split
    · intro g hg
      cases hg
    · intro g hg
      rw [List.mem_eraseDups] at hg
      obtain ⟨row, hrow, rfl⟩ := List.mem_map.mp hg
      exact hc.assignmentGroup row (List.mem_filter.mp hrow).1

/-- The set of the scope and the query agree on the group of a device. -/
theorem contains_eq (hc : s.Consistent database)
    (hs : computePermissionScope s.rbac actor.id "web_client.connect" = .ok scope)
    (hp : p ∈ s.peers) : contains scope p = (scope.global || p.deviceGroupGuid.any fun guid ↦
      scope.deviceGroupGuids.any (database.same guid)) := by
  rw [contains]
  cases hg : p.deviceGroupGuid with
  | none => rfl
  | some g =>
    have hgroup := hc.peerGroup p hp g hg
    have hne : g ≠ "" := by
      obtain ⟨group, hm, rfl⟩ := List.mem_map.mp hgroup
      exact hc.guid group hm
    have htruthy : truthy (some g) = some g := by simp [truthy, Option.filter, hne]
    have hsame : scope.deviceGroupGuids.contains g =
        scope.deviceGroupGuids.any (database.same g) := by
      rw [Bool.eq_iff_iff, List.contains_iff_mem, List.any_eq_true]
      constructor
      · intro hm
        exact ⟨g, hm, database.refl g⟩
      · rintro ⟨g', hm, heq⟩
        have hsame : g = g' := hc.group_ext hgroup (scope_groups hc hs g' hm) heq
        rwa [hsame]
    rw [htruthy]
    exact congrArg (scope.global || ·) hsame

/-- A device is the only candidate just when its id is registered once. -/
theorem candidates_eq_singleton (hc : s.Consistent database) (hp : p ∈ s.peers) :
    (s.peers.filter fun peer ↦ database.same peer.id p.id).take 2 = [p] ↔
      (s.peers.any fun duplicate ↦
        database.same duplicate.id p.id && !database.same duplicate.uuid p.uuid) = false := by
  have hnodup : (s.peers.filter fun peer ↦ database.same peer.id p.id).Nodup := by
    refine (hc.uuids.imp fun {q r} hqr heq ↦ ?_).filter _
    rw [heq, database.refl] at hqr
    cases hqr
  rw [take_two_eq_singleton hnodup (List.mem_filter.mpr ⟨hp, database.refl _⟩), List.any_eq_false]
  constructor
  · intro hall d hd hdup
    obtain ⟨hid, huuid⟩ := Bool.and_eq_true_iff.mp hdup
    rw [hall d (List.mem_filter.mpr ⟨hd, hid⟩), database.refl] at huuid
    cases huuid
  · intro hno d hd
    obtain ⟨hd, hid⟩ := List.mem_filter.mp hd
    refine Database.ext_of_pairwise hc.uuids hd hp ?_
    by_contra huuid
    exact hno d hd (by simp [hid, huuid])

theorem requireScope_eq_ok {scope' : PermissionScope}
    (hs : computePermissionScope s.rbac actor.id "web_client.connect" = .ok scope) :
    requireScope s actor.id = .ok scope' ↔
      (scope.global || !scope.deviceGroupGuids.isEmpty) = true ∧ scope = scope' := by
  have hcode : Rbac.isAssignablePermissionCode "web_client.connect" = true := by decide +kernel
  obtain ⟨isGlobal, guids⟩ := scope
  rw [requireScope, requirePermission, hcode, hs]
  cases isGlobal with
  | true => exact ⟨fun h ↦ ⟨rfl, Except.ok.inj h⟩, fun h ↦ congrArg Except.ok h.2⟩
  | false =>
    cases guids with
    | nil => exact ⟨nofun, nofun⟩
    | cons g guids => exact ⟨fun h ↦ ⟨rfl, Except.ok.inj h⟩, fun h ↦ congrArg Except.ok h.2⟩

/-- The session check of a device comes down to the conditions of the query. -/
theorem validate_iff (hc : s.Consistent database)
    (hlogin : validateLogin database s now actor = .ok expiresAt)
    (hs : computePermissionScope s.rbac actor.id "web_client.connect" = .ok scope)
    (hp : p ∈ s.peers) :
    validate database s now actor p.id .desktop none = .ok (p, expiresAt) ↔
      (scope.global || !scope.deviceGroupGuids.isEmpty) = true ∧
        webClientSelects database s scope p = true := by
  have hselects : webClientSelects database s scope p = true ↔
      p.status = .active ∧ (s.peers.filter fun peer ↦ database.same peer.id p.id).take 2 = [p] ∧
        contains scope p = true := by
    rw [webClientSelects, contains_eq hc hs hp, candidates_eq_singleton hc hp]
    simp only [Bool.and_eq_true, decide_eq_true_eq, Bool.not_eq_true', and_assoc]
  rw [hselects, validate]
  constructor
  · intro h
    obtain ⟨_, hexpires, h⟩ := bind_eq_ok.mp h
    obtain ⟨scope', hscope, h⟩ := bind_eq_ok.mp h
    obtain ⟨hsome, rfl⟩ := (requireScope_eq_ok hs).mp hscope
    dsimp only at h
    split at h
    · next peer hcandidates =>
      obtain ⟨_, hrefuse, h⟩ := bind_eq_ok.mp h
      rw [if_neg (by decide)] at h
      have hpeer : peer = p := (Prod.mk.inj (pure_eq_ok.mp h)).1
      subst hpeer
      have hpass := refuseIf_eq_ok.mp hrefuse
      simp only [Bool.or_eq_false_iff, decide_eq_false_iff_not, not_not, Bool.not_eq_false'] at hpass
      exact ⟨hsome, hpass.1.1.2, hcandidates, hpass.2⟩
    · cases h
  · rintro ⟨hsome, hactive, hcandidates, hcontains⟩
    refine bind_eq_ok.mpr ⟨expiresAt, hlogin, bind_eq_ok.mpr
      ⟨scope, (requireScope_eq_ok hs).mpr ⟨hsome, rfl⟩, ?_⟩⟩
    simp only [hcandidates]
    refine bind_eq_ok.mpr ⟨(), refuseIf_eq_ok.mpr ?_, ?_⟩
    · simp [hactive, hcontains, truthy]
    · rfl

theorem exists_page {α : Type} {rows : List α} {a : α} {pageSize : ℕ} (hsize : 0 < pageSize) :
    (∃ i, a ∈ (rows.drop (i * pageSize)).take pageSize) ↔ a ∈ rows := by
  constructor
  · rintro ⟨i, hm⟩
    exact List.mem_of_mem_drop (List.mem_of_mem_take hm)
  · intro hm
    have hpages : ((List.range rows.length).flatMap fun i ↦
        (rows.drop (i * pageSize)).take pageSize) = rows := by
      rw [flatMap_pages, List.take_of_length_le]
      exact Nat.le_mul_of_pos_right _ hsize
    rw [← hpages] at hm
    obtain ⟨i, -, hm⟩ := List.mem_flatMap.mp hm
    exact ⟨i, hm⟩

/-- Over all pages, the listing shows a device just when the session check lets
the user connect to it. -/
theorem listed_iff_validated (hc : s.Consistent database)
    (hlogin : validateLogin database s now actor = .ok expiresAt)
    (hs : computePermissionScope s.rbac actor.id "web_client.connect" = .ok scope)
    (hq : query.Unfiltered) (hsize : 0 < query.pageSize) (hp : p ∈ s.peers) :
    (∃ current > 0, ∃ row ∈ (getAccessiblePeers database s now actor.id (query.at current) false
      (some scope)).data, row.guid = p.uuid) ↔
        validate database s now actor p.id .desktop none = .ok (p, expiresAt) := by
  rw [validate_iff hc hlogin hs hp]
  cases hsome : scope.global || !scope.deviceGroupGuids.isEmpty with
  | false =>
    have hnone : (!scope.global && scope.deviceGroupGuids.isEmpty) = true := by
      rw [Bool.or_eq_false_iff] at hsome
      simpa using hsome
    simp [getAccessiblePeers, hnone]
  | true =>
    have hsome' : (!scope.global && scope.deviceGroupGuids.isEmpty) = false := by
      rw [Bool.or_eq_true] at hsome
      simpa [or_iff_not_imp_left] using hsome
    have hfilter : s.peers.filter (fun peer ↦ webClientSelects database s scope peer &&
        filters database s now query peer) = s.peers.filter (webClientSelects database s scope) := by
      refine List.filter_congr fun peer _ ↦ ?_
      rw [filters_unfiltered hq, Bool.and_true]
    have hpage : ∀ current, (getAccessiblePeers database s now actor.id (query.at current) false
        (some scope)).data = (((database.order
          (s.peers.filter (webClientSelects database s scope))).drop
            ((current - 1) * query.pageSize)).take query.pageSize).map (present database s now) := by
      intro current
      rw [← hfilter]
      simp only [getAccessiblePeers, hsome']
      rfl
    have hmem : ∀ q, q ∈ database.order (s.peers.filter (webClientSelects database s scope)) ↔
        q ∈ s.peers ∧ webClientSelects database s scope q = true := by
      intro q
      rw [(database.perm _).mem_iff, List.mem_filter]
    constructor
    · rintro ⟨current, -, row, hrow, hguid⟩
      rw [hpage] at hrow
      obtain ⟨q, hq, rfl⟩ := List.mem_map.mp hrow
      obtain ⟨hqs, hselected⟩ := (hmem q).mp ((exists_page hsize).mp ⟨_, hq⟩)
      have hsame : database.same q.uuid p.uuid = true := by
        rw [← hguid]
        exact database.refl _
      rw [Database.ext_of_pairwise hc.uuids hqs hp hsame] at hselected
      exact ⟨rfl, hselected⟩
    · rintro ⟨-, hselected⟩
      obtain ⟨i, hi⟩ := (exists_page hsize).mpr ((hmem p).mpr ⟨hp, hselected⟩)
      refine ⟨i + 1, by omega, present database s now p, ?_, rfl⟩
      rw [hpage, Nat.add_sub_cancel]
      exact List.mem_map_of_mem hi

end Agreement

section Sample

def sampleDatabase : Database where
  same a b := a = b
  refl _ := decide_eq_true rfl
  symm _ _ h := decide_eq_true (of_decide_eq_true h).symm
  trans _ _ _ h h' := decide_eq_true ((of_decide_eq_true h).trans (of_decide_eq_true h'))
  like _ _ := false
  order := id
  perm peers := .refl peers

def samplePeer (uuid id : String) (group : Option String) : Peer :=
  ⟨uuid, id, none, group, none, none, .active, 0, none⟩

/-- A user may connect to the group `g`. Two devices have the id `2`. -/
def sampleStore : Store where
  rbac :=
    { users := [⟨"u", .active, false⟩]
      roles := [⟨"r", "Support", false⟩]
      rolePermissions := [⟨"r", "web_client.connect"⟩]
      assignments := [⟨"a", "u", "r", "device_group"⟩]
      assignmentGroups := [⟨"a", "g"⟩]
      deviceGroups := [⟨"g", "Office"⟩] }
  tokens := [⟨"t", "u", "j", none, none, none, none, none, 9, false⟩]
  peers := [samplePeer "p" "1" (some "g"), samplePeer "q" "2" (some "g"), samplePeer "r" "2" none]
  sysinfos := []
  usernames := []
  strategies := []
  deviceGroupUserPermissions := []
  userUserPermissions := []

def sampleQuery : PeerQueryDto := ⟨1, 20, none, none, none, none, none, none, none⟩

theorem sampleStore_consistent : sampleStore.Consistent sampleDatabase where
  uuids := by simp [sampleStore, sampleDatabase, samplePeer]
  groups := by simp [sampleStore]
  guid := by simp [sampleStore]
  peerGroup := by simp [sampleStore, samplePeer]
  assignmentGroup := by simp [sampleStore]

theorem sample_accessible : (∃ current > 0, ∃ row ∈ (getAccessiblePeers sampleDatabase sampleStore 5
    "u" (sampleQuery.at current) false (some ⟨false, ["g"]⟩)).data, row.guid = "p") ↔
      validate sampleDatabase sampleStore 5 ⟨"u", "j"⟩ "1" .desktop none =
        .ok (samplePeer "p" "1" (some "g"), 9) := by
  have hlogin : validateLogin sampleDatabase sampleStore 5 ⟨"u", "j"⟩ = .ok 9 := rfl
  have hscope : computePermissionScope sampleStore.rbac "u" "web_client.connect" =
      .ok ⟨false, ["g"]⟩ := by decide +kernel
  exact listed_iff_validated sampleStore_consistent hlogin hscope
    ⟨rfl, rfl, rfl, rfl, rfl, rfl, rfl⟩ (Nat.succ_pos 19) (.head _)

end Sample

end RustdeskConsole.WebClient
