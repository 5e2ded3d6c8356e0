import RustdeskConsole.Collections.Rows
import RustdeskConsole.Strategies.Service

namespace RustdeskConsole.Strategies

open Collections
open Devices (truthy)

/-- The columns of a device that decide about its strategy. -/
def Peer.links (peer : Peer) : Option String × Option String × Option String :=
  (peer.strategyGuid, peer.userGuid, peer.deviceGroupGuid)

namespace Database

variable {db db' : Database} {uuid uuid' guid : String} {f : Peer → Peer}

def userStrategy (db : Database) (guid : String) : Option Strategy :=
  (db.user guid).bind fun user ↦ db.strategyOf user.strategyGuid

def groupStrategy (db : Database) (guid : String) : Option Strategy :=
  (db.deviceGroup guid).bind fun group ↦ db.strategyOf group.strategyGuid

/-- The strategy of a device: its own, else its user's, else its group's. -/
def resolve (db : Database) (peer : Peer) : Option Strategy :=
  ((db.strategyOf peer.strategyGuid).or ((truthy peer.userGuid).bind db.userStrategy)).or
    ((truthy peer.deviceGroupGuid).bind db.groupStrategy)

/-- The strategies that rows refer to. -/
def references (db : Database) : List (Option String) :=
  db.peers.map (·.strategyGuid) ++ db.users.map (·.strategyGuid) ++
    db.deviceGroups.map (·.strategyGuid)

theorem strategy_guid {strategy : Strategy} (h : db.strategy guid = some strategy) :
    strategy.guid = guid := by simpa using List.find?_some h

theorem peer_uuid {peer : Peer} (h : db.peer uuid = some peer) : peer.uuid = uuid := by
  simpa using List.find?_some h

theorem strategy_congr (h : db'.strategies = db.strategies) : db'.strategy = db.strategy := by
  funext guid
  rw [strategy, h, strategy]

theorem strategyOf_guid {reference : Option String} {strategy : Strategy}
    (h : db.strategyOf reference = some strategy) : db.strategy strategy.guid = some strategy := by
  obtain ⟨guid, -, hg⟩ := Option.bind_eq_some_iff.mp h
  rw [strategy_guid hg, hg]

theorem userStrategy_guid {strategy : Strategy} (h : db.userStrategy guid = some strategy) :
    db.strategy strategy.guid = some strategy := by
  obtain ⟨user, -, hu⟩ := Option.bind_eq_some_iff.mp h
  exact strategyOf_guid hu

theorem groupStrategy_guid {strategy : Strategy} (h : db.groupStrategy guid = some strategy) :
    db.strategy strategy.guid = some strategy := by
  obtain ⟨group, -, hg⟩ := Option.bind_eq_some_iff.mp h
  exact strategyOf_guid hg

/-- What a device resolves to is a row of the table. -/
theorem resolve_guid {peer : Peer} {strategy : Strategy} (h : db.resolve peer = some strategy) :
    db.strategy strategy.guid = some strategy := by
  rcases Option.or_eq_some_iff.mp h with h | ⟨-, h⟩
  · rcases Option.or_eq_some_iff.mp h with h | ⟨-, h⟩
    · exact strategyOf_guid h
    · obtain ⟨guid, -, hu⟩ := Option.bind_eq_some_iff.mp h
      exact userStrategy_guid hu
  · obtain ⟨guid, -, hg⟩ := Option.bind_eq_some_iff.mp h
    exact groupStrategy_guid hg

theorem resolve_eq_of_guid {peer peer' : Peer}
    (h : (db.resolve peer).map (·.guid) = (db.resolve peer').map (·.guid)) :
    db.resolve peer = db.resolve peer' := by
  cases hr : db.resolve peer with
  | none =>
    rw [hr] at h
    exact (Option.map_eq_none_iff.mp h.symm).symm
  | some strategy =>
    rw [hr] at h
    obtain ⟨strategy', hr', hg⟩ := Option.map_eq_some_iff.mp h.symm
    have hs' := resolve_guid hr'
    rw [hg, resolve_guid hr] at hs'
    rw [hr', hs']

theorem resolve_congr {peer peer' : Peer} (hl : peer'.links = peer.links)
    (hs : db'.strategyOf peer.strategyGuid = db.strategyOf peer.strategyGuid)
    (hu : ∀ guid, peer.userGuid = some guid → db'.userStrategy guid = db.userStrategy guid)
    (hg : ∀ guid, peer.deviceGroupGuid = some guid →
      db'.groupStrategy guid = db.groupStrategy guid) : db'.resolve peer' = db.resolve peer := by
  obtain ⟨h₁, h₂⟩ := Prod.mk.inj hl
  obtain ⟨h₂, h₃⟩ := Prod.mk.inj h₂
  have hset : ∀ reference guid, truthy reference = some guid → reference = some guid :=
    fun _ _ ht ↦ (Option.filter_eq_some_iff.mp ht).1
  rw [resolve, resolve, h₁, h₂, h₃, hs]
  congr 1
  · congr 1
    cases ht : truthy peer.userGuid with
    | none => rfl
    | some guid => exact hu guid (hset _ _ ht)
  · cases ht : truthy peer.deviceGroupGuid with
    | none => rfl
    | some guid => exact hg guid (hset _ _ ht)

theorem peer_updatePeer (hf : ∀ row, (f row).uuid = row.uuid) :
    (db.updatePeer uuid f).peer uuid' =
      if uuid' = uuid then (db.peer uuid').map f else db.peer uuid' := by
  have hkey : ∀ row : Peer, (if row.uuid = uuid then f row else row).uuid = row.uuid := by
    intro row
    split
    · exact hf row
    · rfl
  rw [peer, updatePeer, find?_map_key hkey, ← peer]
  cases hp : db.peer uuid' with
  | none => simp
  | some row =>
    rw [Option.map_some, peer_uuid hp]
    split <;> rfl

theorem strategy_of_mem {row : Strategy} (h : row ∈ db.strategies) :
    ∃ strategy, db.strategy row.guid = some strategy := by
  refine Option.isSome_iff_exists.mp (List.find?_isSome.mpr ⟨row, h, ?_⟩)
  simp only [decide_true]

theorem mem_references {reference : Option String} : reference ∈ db.references ↔
    (∃ row ∈ db.peers, row.strategyGuid = reference) ∨
      (∃ row ∈ db.users, row.strategyGuid = reference) ∨
      ∃ row ∈ db.deviceGroups, row.strategyGuid = reference := by
  simp only [references, List.mem_append, List.mem_map, or_assoc]

/-- Every reference that is set leads to a row. -/
def Referential (db : Database) : Prop :=
  ∀ guid, some guid ∈ db.references → guid = "" ∨ ∃ strategy, db.strategy guid = some strategy

/-- The tables change in a way that cached strategies outlive, the devices of
`S` apart. -/
structure Keeps (S : Set String) (db db' : Database) : Prop where
  strategy : ∀ guid strategy, db.strategy guid = some strategy → db'.strategy guid = some strategy
  referential : Referential db'
  resolve : ∀ uuid ∉ S, ∀ peer', db'.peer uuid = some peer' →
    ∃ peer, db.peer uuid = some peer ∧ db'.resolve peer' = db.resolve peer

/-- The assignments stay and so does what they lead to. -/
structure Same (db db' : Database) : Prop where
  strategies : db'.strategies = db.strategies
  userStrategy : ∀ guid, db'.userStrategy guid = db.userStrategy guid
  groupStrategy : ∀ guid, db'.groupStrategy guid = db.groupStrategy guid
  users : ∀ row' ∈ db'.users, row'.strategyGuid = none ∨
    ∃ row ∈ db.users, row.strategyGuid = row'.strategyGuid
  deviceGroups : ∀ row' ∈ db'.deviceGroups, row'.strategyGuid = none ∨
    ∃ row ∈ db.deviceGroups, row.strategyGuid = row'.strategyGuid

namespace Same

variable {S : Set String} {peer : Peer}

theorem strategyOf (h : Same db db') (reference : Option String) :
    db'.strategyOf reference = db.strategyOf reference := by
  rw [Database.strategyOf, strategy_congr h.strategies, Database.strategyOf]

theorem resolve (h : Same db db') {peer' : Peer} (hl : peer'.links = peer.links) :
    db'.resolve peer' = db.resolve peer :=
  resolve_congr hl (h.strategyOf _) (fun _ _ ↦ h.userStrategy _) fun _ _ ↦ h.groupStrategy _

/-- Only what happens to the devices is left to look at. -/
theorem keeps (h : Same db db') (hr : Referential db)
    (hp : ∀ row' ∈ db'.peers, ∀ guid, row'.strategyGuid = some guid →
      (∃ row ∈ db.peers, row.strategyGuid = some guid) ∨
        ∃ strategy, db.strategy guid = some strategy)
    (hl : ∀ uuid ∉ S, ∀ peer', db'.peer uuid = some peer' →
      ∃ peer, db.peer uuid = some peer ∧ peer'.links = peer.links) : Keeps S db db' where
  strategy guid strategy hs := by rwa [strategy_congr h.strategies]
  referential guid hg := by
    rw [strategy_congr h.strategies]
    rcases mem_references.mp hg with ⟨row, hm, heq⟩ | ⟨row, hm, heq⟩ | ⟨row, hm, heq⟩
    · rcases hp row hm guid heq with ⟨row', hm', heq'⟩ | hs
      · exact hr guid (mem_references.mpr (.inl ⟨row', hm', heq'⟩))
      · exact .inr hs
    · rcases h.users row hm with hn | ⟨row', hm', heq'⟩
      · simp [hn] at heq
      · exact hr guid (mem_references.mpr (.inr (.inl ⟨row', hm', heq'.trans heq⟩)))
    · rcases h.deviceGroups row hm with hn | ⟨row', hm', heq'⟩
      · simp [hn] at heq
      · exact hr guid (mem_references.mpr (.inr (.inr ⟨row', hm', heq'.trans heq⟩)))
  resolve uuid hu peer' hp' := by
    obtain ⟨peer, hpeer, hlinks⟩ := hl uuid hu peer' hp'
    exact ⟨peer, hpeer, h.resolve hlinks⟩

end Same

section Peers

variable {S : Set String} (hs : db'.strategies = db.strategies) (hu : db'.users = db.users)
  (hg : db'.deviceGroups = db.deviceGroups)

include hs hu hg

theorem same_of_eq : Same db db' := by
  have hstrategy : db'.strategyOf = db.strategyOf := by
    funext reference
    rw [strategyOf, strategy_congr hs, strategyOf]
  refine ⟨hs, fun guid ↦ ?_, fun guid ↦ ?_, fun row hm ↦ ?_, fun row hm ↦ ?_⟩
  · rw [userStrategy, user, hu, hstrategy]
    rfl
  · rw [groupStrategy, deviceGroup, hg, hstrategy]
    rfl
  · rw [hu] at hm
    exact .inr ⟨row, hm, rfl⟩
  · rw [hg] at hm
    exact .inr ⟨row, hm, rfl⟩

end Peers

section Writes

variable {data : PeerUpdate}

@[simp] theorem apply_uuid (peer : Peer) : (data.apply peer).uuid = peer.uuid := rfl

/-- A device that is linked anew, to a strategy that is there. -/
theorem keeps_updatePeer (hr : Referential db)
    (hd : ∀ guid, data.strategyGuid = some (some guid) →
      ∃ strategy, db.strategy guid = some strategy) :
    Keeps {uuid} db (db.updatePeer uuid data.apply) := by
  refine Same.keeps ?_ hr (fun row' hm guid hg ↦ ?_) fun uuid' hu peer' hp ↦ ?_
  · exact same_of_eq rfl rfl rfl
  · obtain ⟨row, hrow, rfl⟩ := List.mem_map.mp hm
    by_cases hk : row.uuid = uuid
    · rw [if_pos hk, PeerUpdate.apply] at hg
      dsimp only at hg
      cases hs : data.strategyGuid with
      | none =>
        rw [hs] at hg
        exact .inl ⟨row, hrow, hg⟩
      | some reference =>
        rw [hs, Option.getD_some] at hg
        exact .inr (hd guid (hg ▸ hs))
    · rw [if_neg hk] at hg
      exact .inl ⟨row, hrow, hg⟩
  · rw [peer_updatePeer (f := data.apply) fun _ ↦ rfl, if_neg (by simpa using hu)] at hp
    exact ⟨peer', hp, rfl⟩

/-- A change of a device that leaves its links alone. -/
theorem keeps_updatePeer_links (hr : Referential db) (hf : ∀ row, (f row).uuid = row.uuid)
    (hl : ∀ row, (f row).links = row.links) : Keeps ∅ db (db.updatePeer uuid f) := by
  refine Same.keeps ?_ hr (fun row' hm guid hg ↦ ?_) fun uuid' _ peer' hp ↦ ?_
  · exact same_of_eq rfl rfl rfl
  · obtain ⟨row, hrow, rfl⟩ := List.mem_map.mp hm
    refine .inl ⟨row, hrow, ?_⟩
    split at hg
    · exact (congrArg Prod.fst (hl row)).symm.trans hg
    · exact hg
  · rw [peer_updatePeer hf] at hp
    split at hp
    · obtain ⟨peer, hpeer, rfl⟩ := Option.map_eq_some_iff.mp hp
      exact ⟨peer, hpeer, hl peer⟩
    · exact ⟨peer', hp, rfl⟩

theorem keeps_deletePeer (hr : Referential db) (tombstones : List DeviceTombstone) :
    Keeps ∅ db { db with peers := db.peers.filter (·.uuid ≠ uuid), tombstones } := by
  refine Same.keeps ?_ hr (fun row' hm guid hg ↦ ?_) fun uuid' _ peer' hp ↦ ?_
  · exact same_of_eq rfl rfl rfl
  · exact .inl ⟨row', (List.mem_filter.mp hm).1, hg⟩
  · by_cases hk : uuid' = uuid
    · subst hk
      have hm := (List.mem_filter.mp (List.mem_of_find?_eq_some hp)).2
      simp [peer_uuid hp] at hm
    · rw [peer, find?_filter_key hk] at hp
      exact ⟨peer', hp, rfl⟩

theorem keeps_insertPeer (hr : Referential db) (row : Peer) (hl : row.strategyGuid = none) :
    Keeps {row.uuid} db { db with peers := row :: db.peers } := by
  refine Same.keeps ?_ hr (fun row' hm guid hg ↦ ?_) fun uuid' hu peer' hp ↦ ?_
  · exact same_of_eq rfl rfl rfl
  · rcases List.mem_cons.mp hm with rfl | hm
    · rw [hl] at hg
      cases hg
    · exact .inl ⟨row', hm, hg⟩
  · have hk : row.uuid ≠ uuid' := fun h ↦ hu h.symm
    rw [peer, List.find?_cons_of_neg (by simpa using hk)] at hp
    exact ⟨peer', hp, rfl⟩

/-- A change that no assignment and no device takes part in. -/
theorem Same.keeps_of_peers (h : Same db db') (hr : Referential db) (hp : db'.peers = db.peers) :
    Keeps ∅ db db' := by
  refine h.keeps hr (fun row hm guid hg ↦ ?_) fun uuid _ peer' hpeer ↦ ?_
  · rw [hp] at hm
    exact .inl ⟨row, hm, hg⟩
  · rw [peer, hp] at hpeer
    exact ⟨peer', hpeer, rfl⟩

end Writes

/-- The value a row is given by a write of the strategies of one kind. -/
def written (selected : String × Option String → Bool) (value : Option String) (guid : String)
    (reference : Option String) : Option String :=
  if selected (guid, reference) then value else reference

theorem references_setStrategies {type : TargetType} {selected : String × Option String → Bool}
    {value reference : Option String}
    (h : reference ∈ (db.setStrategies type selected value).references) :
    reference = value ∨ reference ∈ db.references := by
  have hrow : ∀ guid old, written selected value guid old = reference →
      reference = value ∨ old = reference := by
    intro guid old heq
    rw [written] at heq
    split at heq
    · exact .inl heq.symm
    · exact .inr heq
  rw [mem_references]
  cases type with
  | device =>
    rcases mem_references.mp h with ⟨row', hm, heq⟩ | h | h
    · obtain ⟨row, hrow', rfl⟩ := List.mem_map.mp hm
      exact (hrow _ _ heq).imp_right fun h ↦ .inl ⟨row, hrow', h⟩
    · exact .inr (.inr (.inl h))
    · exact .inr (.inr (.inr h))
  | user =>
    rcases mem_references.mp h with h | ⟨row', hm, heq⟩ | h
    · exact .inr (.inl h)
    · obtain ⟨row, hrow', rfl⟩ := List.mem_map.mp hm
      exact (hrow _ _ heq).imp_right fun h ↦ .inr (.inl ⟨row, hrow', h⟩)
    · exact .inr (.inr (.inr h))
  | deviceGroup =>
    rcases mem_references.mp h with h | h | ⟨row', hm, heq⟩
    · exact .inr (.inl h)
    · exact .inr (.inr (.inl h))
    · obtain ⟨row, hrow', rfl⟩ := List.mem_map.mp hm
      exact (hrow _ _ heq).imp_right fun h ↦ .inr (.inr ⟨row, hrow', h⟩)

section Rows

variable {strategy : Strategy}

/-- A user that nothing was assigned to yet. -/
theorem same_insertUser {row : User} (hn : db.user row.guid = none) (hs : row.strategyGuid = none) :
    Same db { db with users := row :: db.users } where
  strategies := rfl
  userStrategy guid := by
    rw [userStrategy, user]
    by_cases hk : row.guid = guid
    · subst hk
      rw [List.find?_cons_of_pos (by simp), userStrategy, hn, Option.bind_some, hs]
      rfl
    · rw [List.find?_cons_of_neg (by simpa using hk)]
      rfl
  groupStrategy _ := rfl
  users row' hm := by
    rcases List.mem_cons.mp hm with rfl | hm
    · exact .inl hs
    · exact .inr ⟨row', hm, rfl⟩
  deviceGroups row' hm := .inr ⟨row', hm, rfl⟩

/-- A change of the users that leaves their assignments alone. -/
theorem same_mapUsers {f : User → User} (hf : ∀ row, (f row).guid = row.guid)
    (hs : ∀ row, (f row).strategyGuid = row.strategyGuid) :
    Same db { db with users := db.users.map f } where
  strategies := rfl
  userStrategy guid := by
    rw [userStrategy, user, find?_map_key hf, userStrategy, user]
    cases db.users.find? fun row ↦ row.guid = guid with
    | none => rfl
    | some row =>
      rw [Option.map_some, Option.bind_some, Option.bind_some, hs]
      rfl
  groupStrategy _ := rfl
  users row' hm := by
    obtain ⟨row, hrow, rfl⟩ := List.mem_map.mp hm
    exact .inr ⟨row, hrow, (hs row).symm⟩
  deviceGroups row' hm := .inr ⟨row', hm, rfl⟩

theorem userStrategy_removeUser (guid' : String) : (db.removeUser guid).userStrategy guid' =
    if guid' = guid then none else db.userStrategy guid' := by
  split
  · next heq =>
    have hn : (db.removeUser guid).user guid = none := by
      refine List.find?_eq_none.mpr fun row hm ↦ ?_
      simpa using (List.mem_filter.mp hm).2
    rw [heq, userStrategy, hn, Option.bind_none]
  · next hne =>
    rw [userStrategy, user, removeUser, find?_filter_key hne]
    rfl

/-- Without its user a device gets what it would get if it had none. -/
theorem resolve_removeUser {peer : Peer} : (db.removeUser guid).resolve peer =
    db.resolve { peer with userGuid := peer.userGuid.filter (· ≠ guid) } := by
  have hu : (truthy peer.userGuid).bind (db.removeUser guid).userStrategy =
      (truthy (peer.userGuid.filter (· ≠ guid))).bind db.userStrategy := by
    rw [funext userStrategy_removeUser]
    cases peer.userGuid with
    | none => rfl
    | some guid' =>
      by_cases hk : guid' = guid
      · subst hk
        rw [Option.filter_some_neg (by simp)]
        cases ht : truthy (some guid') with
        | none => rfl
        | some guid'' =>
          obtain ⟨heq, -⟩ := Option.filter_eq_some_iff.mp ht
          cases heq
          rw [Option.bind_some, if_pos rfl]
          rfl
      · rw [Option.filter_some_pos (by simpa using hk)]
        cases ht : truthy (some guid') with
        | none => rfl
        | some guid'' =>
          obtain ⟨heq, -⟩ := Option.filter_eq_some_iff.mp ht
          cases heq
          rw [Option.bind_some, Option.bind_some, if_neg hk]
  rw [resolve, resolve, hu]
  rfl

theorem same_insertDeviceGroup {row : DeviceGroup} (hn : db.deviceGroup row.guid = none)
    (hs : row.strategyGuid = none) :
    Same db { db with deviceGroups := row :: db.deviceGroups } where
  strategies := rfl
  userStrategy _ := rfl
  groupStrategy guid := by
    rw [groupStrategy, deviceGroup]
    by_cases hk : row.guid = guid
    · subst hk
      rw [List.find?_cons_of_pos (by simp), groupStrategy, hn, Option.bind_some, hs]
      rfl
    · rw [List.find?_cons_of_neg (by simpa using hk)]
      rfl
  users row' hm := .inr ⟨row', hm, rfl⟩
  deviceGroups row' hm := by
    rcases List.mem_cons.mp hm with rfl | hm
    · exact .inl hs
    · exact .inr ⟨row', hm, rfl⟩

/-- A change of the groups that leaves their assignments alone. -/
theorem same_mapDeviceGroups {f : DeviceGroup → DeviceGroup} (hf : ∀ row, (f row).guid = row.guid)
    (hs : ∀ row, (f row).strategyGuid = row.strategyGuid) :
    Same db { db with deviceGroups := db.deviceGroups.map f } where
  strategies := rfl
  userStrategy _ := rfl
  groupStrategy guid := by
    rw [groupStrategy, deviceGroup, find?_map_key hf, groupStrategy, deviceGroup]
    cases db.deviceGroups.find? fun row ↦ row.guid = guid with
    | none => rfl
    | some row =>
      rw [Option.map_some, Option.bind_some, Option.bind_some, hs]
      rfl
  users row' hm := .inr ⟨row', hm, rfl⟩
  deviceGroups row' hm := by
    obtain ⟨row, hrow, rfl⟩ := List.mem_map.mp hm
    exact .inr ⟨row, hrow, (hs row).symm⟩

/-- With a group its devices lose what was assigned to it, and nothing else changes. -/
theorem keeps_removeDeviceGroup (hr : Referential db) :
    Keeps { uuid | ∃ row ∈ db.peers, row.uuid = uuid ∧ row.deviceGroupGuid = some guid } db
      (db.removeDeviceGroup guid) where
  strategy _ _ hs := hs
  referential guid' hg := by
    refine hr guid' ?_
    rcases mem_references.mp hg with ⟨row', hm, heq⟩ | ⟨row', hm, heq⟩ | ⟨row', hm, heq⟩
    · obtain ⟨row, hrow, rfl⟩ := List.mem_map.mp hm
      exact mem_references.mpr (.inl ⟨row, hrow, heq⟩)
    · exact mem_references.mpr (.inr (.inl ⟨row', hm, heq⟩))
    · exact mem_references.mpr (.inr (.inr ⟨row', (List.mem_filter.mp hm).1, heq⟩))
  resolve uuid' hu peer' hp := by
    have hmap : (db.removeDeviceGroup guid).peer uuid' = (db.peer uuid').map fun row ↦
        { row with deviceGroupGuid := row.deviceGroupGuid.filter (· ≠ guid) } :=
      find?_map_key (by intro _; rfl) uuid'
    rw [hmap] at hp
    obtain ⟨peer, hpeer, rfl⟩ := Option.map_eq_some_iff.mp hp
    have hne : peer.deviceGroupGuid ≠ some guid := fun h ↦
      hu ⟨peer, List.mem_of_find?_eq_some hpeer, peer_uuid hpeer, h⟩
    have hkept : peer.deviceGroupGuid.filter (· ≠ guid) = peer.deviceGroupGuid := by
      cases hg : peer.deviceGroupGuid with
      | none => rfl
      | some guid' =>
        rw [hg] at hne
        exact Option.filter_some_pos (by simpa using hne)
    refine ⟨peer, hpeer, resolve_congr ?_ rfl (fun _ _ ↦ rfl) fun guid' hg ↦ ?_⟩
    · simp only [Peer.links, hkept]
    · have hk : guid' ≠ guid := fun h ↦ hne (h ▸ hg)
      rw [groupStrategy, deviceGroup, removeDeviceGroup, find?_filter_key hk]
      rfl

/-- With a user its devices lose what was assigned to it, and nothing else changes. -/
theorem keeps_removeUser (hr : Referential db) :
    Keeps { uuid | ∃ peer, db.peer uuid = some peer ∧ peer.userGuid = some guid } db
      (db.removeUser guid) where
  strategy _ _ hs := hs
  referential guid' hg := by
    refine hr guid' ?_
    rcases mem_references.mp hg with h | ⟨row', hm, heq⟩ | h
    · exact mem_references.mpr (.inl h)
    · exact mem_references.mpr (.inr (.inl ⟨row', (List.mem_filter.mp hm).1, heq⟩))
    · exact mem_references.mpr (.inr (.inr h))
  resolve uuid' hu peer' hp := by
    refine ⟨peer', hp, ?_⟩
    have hkept : peer'.userGuid.filter (· ≠ guid) = peer'.userGuid := by
      cases hg : peer'.userGuid with
      | none => rfl
      | some guid' =>
        refine Option.filter_some_pos ?_
        simpa using fun h : guid' = guid ↦ hu ⟨peer', hp, by rw [hg, h]⟩
    rw [resolve_removeUser, hkept]

theorem keeps_setStrategies (hr : Referential db) {type : TargetType}
    {selected : String × Option String → Bool} {value : Option String}
    (hv : ∀ guid, value = some guid → ∃ strategy, db.strategy guid = some strategy) :
    Keeps Set.univ db (db.setStrategies type selected value) where
  strategy guid strategy hs := by
    cases type <;> exact hs
  referential guid hg := by
    have hs : (db.setStrategies type selected value).strategies = db.strategies := by
      cases type <;> rfl
    rw [strategy_congr hs]
    rcases references_setStrategies hg with heq | hg
    · exact .inr (hv guid heq.symm)
    · exact hr guid hg
  resolve _ hu := absurd (Set.mem_univ _) hu

/-- A new strategy is one that nothing refers to. -/
theorem keeps_insertStrategy (hr : Referential db) (hn : db.strategy strategy.guid = none) :
    Keeps ∅ db { db with strategies := strategy :: db.strategies } := by
  have hmono : ∀ guid row, db.strategy guid = some row →
      ({ db with strategies := strategy :: db.strategies } : Database).strategy guid =
        some row := by
    intro guid row hs
    have hk : strategy.guid ≠ guid := by
      intro h
      rw [← h, hn] at hs
      cases hs
    rw [Database.strategy, List.find?_cons_of_neg (by simpa using hk)]
    exact hs
  have hof : ∀ reference ∈ db.references,
      ({ db with strategies := strategy :: db.strategies } : Database).strategyOf reference =
        db.strategyOf reference := by
    intro reference hm
    cases ht : truthy reference with
    | none => rw [strategyOf, ht, strategyOf, ht, Option.bind_none, Option.bind_none]
    | some guid =>
      obtain ⟨rfl, hg⟩ := Option.filter_eq_some_iff.mp ht
      rcases hr guid hm with rfl | ⟨row, hs⟩
      · simp at hg
      · rw [strategyOf, ht, strategyOf, ht, Option.bind_some, Option.bind_some, hs]
        exact hmono guid row hs
  refine ⟨hmono, fun guid hg ↦ ?_,
    fun uuid' _ peer' hp ↦ ⟨peer', hp, resolve_congr rfl ?_ ?_ ?_⟩⟩
  · exact (hr guid hg).imp_right fun ⟨row, hs⟩ ↦ ⟨row, hmono guid row hs⟩
  · exact hof _ (mem_references.mpr (.inl ⟨peer', List.mem_of_find?_eq_some hp, rfl⟩))
  · intro guid _
    rw [userStrategy, userStrategy]
    cases hu : db.user guid with
    | none =>
      rw [user] at hu
      rw [user, hu]
      rfl
    | some row =>
      have hm := List.mem_of_find?_eq_some hu
      rw [user] at hu
      rw [user, hu, Option.bind_some, Option.bind_some]
      exact hof _ (mem_references.mpr (.inr (.inl ⟨row, hm, rfl⟩)))
  · intro guid _
    rw [groupStrategy, groupStrategy]
    cases hg : db.deviceGroup guid with
    | none =>
      rw [deviceGroup] at hg
      rw [deviceGroup, hg]
      rfl
    | some row =>
      have hm := List.mem_of_find?_eq_some hg
      rw [deviceGroup] at hg
      rw [deviceGroup, hg, Option.bind_some, Option.bind_some]
      exact hof _ (mem_references.mpr (.inr (.inr ⟨row, hm, rfl⟩)))

end Rows

section Strategies

variable {strategy : Strategy} {peer : Peer}

/-- The tables after the row of one strategy was replaced. -/
def replaceStrategy (db : Database) (strategy : Strategy) : Database :=
  { db with strategies := db.strategies.map fun row ↦
      if row.guid = strategy.guid then strategy else row }

def replaced (strategy row : Strategy) : Strategy :=
  if row.guid = strategy.guid then strategy else row

theorem replaced_guid (row : Strategy) : (replaced strategy row).guid = row.guid := by
  rw [replaced]
  split
  · next h => exact h.symm
  · rfl

theorem strategy_replaceStrategy :
    (db.replaceStrategy strategy).strategy guid = (db.strategy guid).map (replaced strategy) :=
  find?_map_key (g := replaced strategy) replaced_guid guid

theorem strategyOf_replaceStrategy (reference : Option String) :
    (db.replaceStrategy strategy).strategyOf reference =
      (db.strategyOf reference).map (replaced strategy) := by
  rw [strategyOf, strategyOf, Option.map_bind]
  congr 1
  funext guid
  exact strategy_replaceStrategy

/-- Which strategy a device gets does not depend on what it says. -/
theorem resolve_replaceStrategy :
    (db.replaceStrategy strategy).resolve peer = (db.resolve peer).map (replaced strategy) := by
  have hu : (db.replaceStrategy strategy).userStrategy =
      fun guid ↦ (db.userStrategy guid).map (replaced strategy) := by
    funext guid
    rw [userStrategy, userStrategy, Option.map_bind]
    exact congrArg _ (funext fun _ ↦ strategyOf_replaceStrategy _)
  have hg : (db.replaceStrategy strategy).groupStrategy =
      fun guid ↦ (db.groupStrategy guid).map (replaced strategy) := by
    funext guid
    rw [groupStrategy, groupStrategy, Option.map_bind]
    exact congrArg _ (funext fun _ ↦ strategyOf_replaceStrategy _)
  rw [resolve, resolve, Option.map_or, Option.map_or, strategyOf_replaceStrategy, hu, hg,
    Option.map_bind, Option.map_bind]
  rfl

theorem guid_replaceStrategy : ((db.replaceStrategy strategy).resolve peer).map (·.guid) =
    (db.resolve peer).map (·.guid) := by
  rw [resolve_replaceStrategy, Option.map_map]
  exact congrArg (fun f ↦ Option.map f _) (funext replaced_guid)

theorem referential_replaceStrategy (hr : Referential db) :
    Referential (db.replaceStrategy strategy) := by
  intro guid hg
  refine (hr guid hg).imp_right fun ⟨row, hs⟩ ↦ ⟨replaced strategy row, ?_⟩
  rw [strategy_replaceStrategy, hs, Option.map_some]

def other (guid : String) (strategy : Strategy) : Bool := strategy.guid ≠ guid

theorem strategyOf_removeStrategy (reference : Option String) :
    (db.removeStrategy guid).strategyOf (reference.filter (· ≠ guid)) =
      (db.strategyOf reference).filter (other guid) := by
  cases reference with
  | none => rfl
  | some guid' =>
    by_cases hk : guid' = guid
    · subst hk
      rw [Option.filter_some_neg (by simp)]
      cases hs : db.strategyOf (some guid') with
      | none => rfl
      | some strategy =>
        obtain ⟨guid, ht, hs⟩ := Option.bind_eq_some_iff.mp hs
        obtain ⟨heq, -⟩ := Option.filter_eq_some_iff.mp ht
        cases heq
        rw [Option.filter_some_neg (by simp [other, strategy_guid hs])]
        rfl
    · rw [Option.filter_some_pos (by simpa using hk), strategyOf, strategyOf]
      cases ht : truthy (some guid') with
      | none => rfl
      | some guid'' =>
        obtain ⟨heq, -⟩ := Option.filter_eq_some_iff.mp ht
        cases heq
        rw [Option.bind_some, Option.bind_some, strategy, removeStrategy, find?_filter_key hk]
        rw [← Database.strategy]
        cases hs : db.strategy guid' with
        | none => rfl
        | some strategy =>
          have hother : other guid strategy = true := by
            simpa [other, strategy_guid hs] using hk
          rw [Option.filter_some_pos hother]

theorem userStrategy_removeStrategy (guid' : String) :
    (db.removeStrategy guid).userStrategy guid' = (db.userStrategy guid').filter (other guid) := by
  have hmap : (db.removeStrategy guid).user guid' = (db.user guid').map fun row ↦
      { row with strategyGuid := row.strategyGuid.filter (· ≠ guid) } :=
    find?_map_key (by intro _; rfl) guid'
  rw [userStrategy, userStrategy, hmap]
  cases db.user guid' with
  | none => rfl
  | some user => exact strategyOf_removeStrategy user.strategyGuid

theorem groupStrategy_removeStrategy (guid' : String) :
    (db.removeStrategy guid).groupStrategy guid' =
      (db.groupStrategy guid').filter (other guid) := by
  have hmap : (db.removeStrategy guid).deviceGroup guid' = (db.deviceGroup guid').map fun row ↦
      { row with strategyGuid := row.strategyGuid.filter (· ≠ guid) } :=
    find?_map_key (by intro _; rfl) guid'
  rw [groupStrategy, groupStrategy, hmap]
  cases db.deviceGroup guid' with
  | none => rfl
  | some group => exact strategyOf_removeStrategy group.strategyGuid

theorem filter_or_filter {α : Type} {p : α → Bool} {x y : Option α}
    (h : ∀ a, x.or y = some a → p a = true) : (x.filter p).or (y.filter p) = x.or y := by
  cases x with
  | none =>
    cases y with
    | none => rfl
    | some b => exact Option.filter_some_pos (h b rfl)
  | some a =>
    rw [Option.filter_some_pos (h a rfl)]
    rfl

theorem filter_bind {α β : Type} {p : β → Bool} (x : Option α) (f : α → Option β) :
    (x.bind f).filter p = x.bind fun a ↦ (f a).filter p := by
  cases x <;> rfl

/-- A device that had another strategy still has it. -/
theorem resolve_removeStrategy (h : ∀ strategy, db.resolve peer = some strategy →
      strategy.guid ≠ guid) :
    (db.removeStrategy guid).resolve
      { peer with strategyGuid := peer.strategyGuid.filter (· ≠ guid) } = db.resolve peer := by
  have hother : ∀ strategy, db.resolve peer = some strategy → other guid strategy = true := by
    intro strategy hs
    simpa [other] using h strategy hs
  rw [resolve, resolve, strategyOf_removeStrategy, funext userStrategy_removeStrategy,
    funext groupStrategy_removeStrategy, ← filter_bind, ← filter_bind]
  rw [resolve] at hother
  by_cases hn : (db.strategyOf peer.strategyGuid).or
      ((truthy peer.userGuid).bind db.userStrategy) = none
  · obtain ⟨h₁, h₂⟩ := Option.or_eq_none_iff.mp hn
    rw [h₁, h₂] at hother ⊢
    exact filter_or_filter hother
  · obtain ⟨strategy, hs⟩ := Option.ne_none_iff_exists'.mp hn
    rw [hs, Option.some_or] at hother ⊢
    rw [filter_or_filter (by rwa [hs]), hs, Option.some_or]

theorem peer_removeStrategy : (db.removeStrategy guid).peer uuid = (db.peer uuid).map fun row ↦
    { row with strategyGuid := row.strategyGuid.filter (· ≠ guid) } :=
  find?_map_key (by intro _; rfl) uuid

theorem strategy_removeStrategy {guid' : String} (hk : guid' ≠ guid) :
    (db.removeStrategy guid).strategy guid' = db.strategy guid' := find?_filter_key hk

theorem referential_removeStrategy (hr : Referential db) :
    Referential (db.removeStrategy guid) := by
  intro guid' hg
  have hm : ∃ reference ∈ db.references, reference.filter (· ≠ guid) = some guid' := by
    rcases mem_references.mp hg with ⟨row', hm, heq⟩ | ⟨row', hm, heq⟩ | ⟨row', hm, heq⟩
    · obtain ⟨row, hrow, rfl⟩ := List.mem_map.mp hm
      exact ⟨_, mem_references.mpr (.inl ⟨row, hrow, rfl⟩), heq⟩
    · obtain ⟨row, hrow, rfl⟩ := List.mem_map.mp hm
      exact ⟨_, mem_references.mpr (.inr (.inl ⟨row, hrow, rfl⟩)), heq⟩
    · obtain ⟨row, hrow, rfl⟩ := List.mem_map.mp hm
      exact ⟨_, mem_references.mpr (.inr (.inr ⟨row, hrow, rfl⟩)), heq⟩
  obtain ⟨reference, hm, heq⟩ := hm
  obtain ⟨rfl, hk⟩ := Option.filter_eq_some_iff.mp heq
  rw [strategy_removeStrategy (by simpa using hk)]
  exact hr guid' hm

end Strategies

end Database

end RustdeskConsole.Strategies
