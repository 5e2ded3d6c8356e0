import RustdeskConsole.Strategies.Handlers

namespace RustdeskConsole.Strategies

open Collections Effects Handler
open Devices (Failure truthy HeartbeatDto SysinfoDto Sysinfo)

variable {α β : Type} {i : ℕ} {w w' w'' : World} {S : Set String} {uuid : String}
  {data : PeerUpdate}

/-- Nothing changes that the strategy of a device depends on. -/
structure Calm (w w' : World) : Prop where
  strategies : w'.db.strategies = w.db.strategies
  users : w'.db.users = w.db.users
  deviceGroups : w'.db.deviceGroups = w.db.deviceGroups
  peers : ∀ uuid, (w'.db.peer uuid).map Peer.links = (w.db.peer uuid).map Peer.links
  references : ∀ reference ∈ w'.db.references, reference ∈ w.db.references
  objects : w'.strategyObjectCache = w.strategyObjectCache
  devices : w'.deviceStrategyCache = w.deviceStrategyCache

namespace Calm

theorem of_peers (hd : w'.db.peers = w.db.peers) (hs : w'.db.strategies = w.db.strategies)
    (hu : w'.db.users = w.db.users) (hg : w'.db.deviceGroups = w.db.deviceGroups)
    (ho : w'.strategyObjectCache = w.strategyObjectCache)
    (hc : w'.deviceStrategyCache = w.deviceStrategyCache) : Calm w w' := by
  refine ⟨hs, hu, hg, fun uuid ↦ ?_, fun reference hm ↦ ?_, ho, hc⟩
  · rw [Database.peer, hd, Database.peer]
  · rwa [Database.references, hd, hu, hg] at hm

theorem refl : Calm w w := of_peers rfl rfl rfl rfl rfl rfl

theorem trans (h : Calm w w') (h' : Calm w' w'') : Calm w w'' where
  strategies := h'.strategies.trans h.strategies
  users := h'.users.trans h.users
  deviceGroups := h'.deviceGroups.trans h.deviceGroups
  peers uuid := (h'.peers uuid).trans (h.peers uuid)
  references reference hm := h.references reference (h'.references reference hm)
  objects := h'.objects.trans h.objects
  devices := h'.devices.trans h.devices

theorem resolve (h : Calm w w') {peer peer' : Peer} (hl : peer'.links = peer.links) :
    w'.db.resolve peer' = w.db.resolve peer :=
  (Database.same_of_eq h.strategies h.users h.deviceGroups).resolve hl

theorem peer (h : Calm w w') {peer' : Peer} (hp : w'.db.peer uuid = some peer') :
    ∃ peer, w.db.peer uuid = some peer ∧ peer'.links = peer.links := by
  have hm := h.peers uuid
  rw [hp, Option.map_some] at hm
  obtain ⟨peer, hp, hl⟩ := Option.map_eq_some_iff.mp hm.symm
  exact ⟨peer, hp, hl.symm⟩

theorem keeps (h : Calm w w') (hr : w.db.Referential) : Database.Keeps ∅ w.db w'.db where
  strategy guid strategy hs := by rwa [Database.strategy_congr h.strategies]
  referential guid hg := by
    rw [Database.strategy_congr h.strategies]
    exact hr guid (h.references _ hg)
  resolve uuid _ peer' hp := by
    obtain ⟨peer, hp, hl⟩ := h.peer hp
    exact ⟨peer, hp, h.resolve hl⟩

theorem coherent (h : Calm w w') (hw : CoherentOff S w) : CoherentOff S w' :=
  (hw.write_quiet (h.keeps hw.referential)).of_eq rfl h.objects h.devices

theorem updatePeer {f : Peer → Peer} (hf : ∀ row, (f row).uuid = row.uuid)
    (hl : ∀ row, (f row).links = row.links) : Calm w { w with db := w.db.updatePeer uuid f } := by
  refine ⟨rfl, rfl, rfl, fun uuid' ↦ ?_, fun reference hm ↦ ?_, rfl, rfl⟩
  · rw [Database.peer_updatePeer hf]
    split
    · rw [Option.map_map]
      exact congrArg (fun g ↦ Option.map g _) (funext hl)
    · rfl
  · rcases Database.mem_references.mp hm with ⟨row', hm, heq⟩ | h
    · obtain ⟨row, hrow, rfl⟩ := List.mem_map.mp hm
      refine Database.mem_references.mpr (.inl ⟨row, hrow, ?_⟩)
      split at heq
      · exact (congrArg Prod.fst (hl row)).symm.trans heq
      · exact heq
    · exact Database.mem_references.mpr (.inr h)

end Calm

/-- The links of one device are written and the cache is not told. -/
def Relinked (uuid : String) (data : PeerUpdate) (w w' : World) : Prop :=
  ∃ w₁, Calm w w₁ ∧ (w₁.db.peer uuid).isSome ∧
    Calm { w₁ with db := w₁.db.updatePeer uuid data.apply } w'

namespace Relinked

theorem apply_links {peer peer' : Peer} (h : peer'.links = peer.links) :
    (data.apply peer').links = (data.apply peer).links := by
  obtain ⟨h₁, h₂⟩ := Prod.mk.inj h
  obtain ⟨h₂, h₃⟩ := Prod.mk.inj h₂
  simp only [Peer.links, PeerUpdate.apply, h₁, h₂, h₃]

theorem coherent (h : Relinked uuid data w w') (hd : data.strategyGuid = none)
    (hw : CoherentOff ∅ w) : CoherentOff {uuid} w' := by
  obtain ⟨w₁, h₁, -, h₂⟩ := h
  have hw₁ := h₁.coherent hw
  refine h₂.coherent ((hw₁.write (Database.keeps_updatePeer hw₁.referential fun guid hg ↦ ?_)).mono
    (Set.empty_union _).subset)
  rw [hd] at hg
  cases hg

theorem peer (h : Relinked uuid data w w') : ∃ peer peer', w.db.peer uuid = some peer ∧
    w'.db.peer uuid = some peer' ∧ w'.db.resolve peer' = w.db.resolve (data.apply peer) := by
  obtain ⟨w₁, h₁, hp₁, h₂⟩ := h
  obtain ⟨peer₁, hp₁⟩ := Option.isSome_iff_exists.mp hp₁
  obtain ⟨peer, hp, hl⟩ := h₁.peer hp₁
  have hwritten : (w₁.db.updatePeer uuid data.apply).peer uuid = some (data.apply peer₁) := by
    rw [Database.peer_updatePeer (f := data.apply) fun _ ↦ rfl, if_pos rfl, hp₁, Option.map_some]
  have hm := h₂.peers uuid
  dsimp only at hm
  rw [hwritten, Option.map_some] at hm
  obtain ⟨peer', hp', hl'⟩ := Option.map_eq_some_iff.mp hm
  refine ⟨peer, peer', hp, hp', (h₂.resolve hl').trans ?_⟩
  refine Eq.trans ?_ (h₁.resolve (apply_links hl))
  exact (Database.same_of_eq rfl rfl rfl).resolve rfl

theorem devices (h : Relinked uuid data w w') : w'.deviceStrategyCache = w.deviceStrategyCache := by
  obtain ⟨w₁, h₁, -, h₂⟩ := h
  exact h₂.devices.trans h₁.devices

/-- The cache stays right if the device still resolves to what it did, and only then. -/
theorem agrees_iff (h : Relinked uuid data w w') (hw : CoherentOff ∅ w) : Agrees w' uuid ↔
    ∀ peer, w.db.peer uuid = some peer → (w.deviceStrategyCache.get? uuid).isSome →
      w.db.resolve (data.apply peer) = w.db.resolve peer := by
  obtain ⟨peer, peer', hp, hp', hr⟩ := h.peer
  constructor
  · intro ha peer₁ hp₁ hc
    rw [hp] at hp₁
    cases hp₁
    obtain ⟨cached, hc⟩ := Option.isSome_iff_exists.mp hc
    refine Database.resolve_eq_of_guid ?_
    rw [← hr, ← ha peer' cached hp' (by rwa [h.devices])]
    exact hw.agrees uuid (Set.notMem_empty _) peer cached hp hc
  · intro heq peer₁ cached hp₁ hc
    rw [hp'] at hp₁
    cases hp₁
    rw [h.devices] at hc
    rw [hr, heq peer hp (by rw [hc]; rfl)]
    exact hw.agrees uuid (Set.notMem_empty _) peer cached hp hc

end Relinked

section Keys

variable (isolatedDeviceUuid : String → String → String) (cloneIsolation : Bool)

/-- The key that a report is filed under. -/
def keyOf (db : Database) (uuid id : String) : String :=
  if cloneIsolation then
    if (db.peer (isolatedDeviceUuid uuid id)).isSome then isolatedDeviceUuid uuid id
    else if (db.peer uuid).any (·.id = id) then uuid else isolatedDeviceUuid uuid id
  else uuid

def keyOfSome (db : Database) (uuid : String) (id : Option String) : String :=
  match truthy id with
  | none => uuid
  | some id => keyOf isolatedDeviceUuid cloneIsolation db uuid id

theorem note_calm (event : Event) : Calm w (w.note i event) := .of_peers rfl rfl rfl rfl rfl rfl

/-- A command that reads a device. -/
theorem findPeer_yields {f : Option Peer → Handler β} {Q : Except Failure β → World → Prop}
    (h : ∀ w', w'.db = w.db → Calm w w' → Yields alone i (f (w.db.peer uuid)) w' Q) :
    Yields alone i (ask (.findPeer uuid) >>= f) w Q :=
  (ask_evaluates fun _ ↦ rfl).bind_yields (h (w.note i (.loaded uuid)) rfl (note_calm _))

theorem resolveDeviceUuid_yields (uuid id : String) :
    Yields alone i (resolveDeviceUuid isolatedDeviceUuid cloneIsolation uuid id) w fun x w' ↦
      x = .ok (keyOf isolatedDeviceUuid cloneIsolation w.db uuid id) ∧ w'.db = w.db ∧
        Calm w w' := by
  rw [resolveDeviceUuid, keyOf]
  cases cloneIsolation with
  | false => exact .pure ⟨rfl, rfl, .refl⟩
  | true =>
    refine findPeer_yields fun w₁ hdb h₁ ↦ ?_
    cases hp : w.db.peer (isolatedDeviceUuid uuid id) with
    | some peer => exact .pure ⟨rfl, hdb, h₁⟩
    | none =>
      refine findPeer_yields fun w₂ hdb₂ h₂ ↦ .pure ⟨?_, hdb₂.trans hdb, h₁.trans h₂⟩
      rw [hdb]
      rfl

theorem resolveSome_yields (uuid : String) (id : Option String) :
    Yields alone i (resolveSome isolatedDeviceUuid cloneIsolation uuid id) w fun x w' ↦
      x = .ok (keyOfSome isolatedDeviceUuid cloneIsolation w.db uuid id) ∧ w'.db = w.db ∧
        Calm w w' := by
  rw [resolveSome, keyOfSome]
  cases truthy id with
  | none => exact .pure ⟨rfl, rfl, .refl⟩
  | some id => exact resolveDeviceUuid_yields isolatedDeviceUuid cloneIsolation uuid id

/-- The links that a report writes past the cache, with the device they are of. -/
def relinked (db : Database) : Request → Option (String × PeerUpdate)
  | .bindDevice userGuid deviceId deviceUuid =>
    if cloneIsolation && (truthy deviceId).isNone then none
    else (truthy deviceUuid).bind fun deviceUuid ↦
      let key := keyOfSome isolatedDeviceUuid cloneIsolation db deviceUuid deviceId
      (db.peer key).map fun _ ↦ (key, ⟨some (some userGuid), none, none, none⟩)
  | .unbindDevice userGuid deviceUuid deviceId =>
    if cloneIsolation && (truthy deviceId).isNone then none
    else
      let key := keyOfSome isolatedDeviceUuid cloneIsolation db deviceUuid deviceId
      ((db.peer key).filter (·.userGuid = some userGuid)).map fun _ ↦
        (key, ⟨some none, none, none, none⟩)
  | .sysinfo dto =>
    if cloneIsolation && (truthy dto.id).isNone then none
    else
      let key := keyOfSome isolatedDeviceUuid cloneIsolation db dto.uuid dto.id
      let sysinfo := Devices.mergeSysinfo key dto (db.sysinfo key)
      (db.peer key).bind fun _ ↦ (truthy sysinfo.presetDeviceGroupName).bind fun name ↦
        (db.deviceGroups.find? (·.name = name)).map fun deviceGroup ↦
          (key, ⟨none, some (some deviceGroup.guid), none, none⟩)
  | _ => none

/-- The key that a heartbeat registers a device under. -/
def registered (db : Database) : Request → Option String
  | .heartbeat data =>
    if cloneIsolation && (db.tombstone data.uuid).any (·.deviceId = data.id) then none
    else
      let key := keyOf isolatedDeviceUuid cloneIsolation db data.uuid data.id
      if (db.peer key).isNone && (db.tombstone key).isNone then some key else none
  | _ => none

/-- The user that a request deletes, if nothing refuses it. -/
def removed : Request → Option String
  | .deleteUser guid none => some guid
  | _ => none

/-- What a request does that may write links past the cache. -/
def Writes (written : Option (String × PeerUpdate)) (w w' : World) : Prop :=
  match written with
  | none => Calm w w'
  | some (uuid, data) => Relinked uuid data w w'

namespace AuthDeviceService

theorem createOrUpdateDevice_yields (userGuid : String) (deviceId deviceUuid : Option String) :
    Yields alone i (createOrUpdateDevice isolatedDeviceUuid cloneIsolation userGuid deviceId
      deviceUuid) w fun _ w' ↦ Writes (relinked isolatedDeviceUuid cloneIsolation w.db
        (.bindDevice userGuid deviceId deviceUuid)) w w' := by
  rw [createOrUpdateDevice, relinked]
  cases truthy deviceUuid with
  | none =>
    refine .pure ?_
    rw [Option.bind_none, ite_self]
    exact .refl
  | some deviceUuid =>
    dsimp only
    split
    · exact .pure .refl
    · rw [Option.bind_some]
      refine (resolveSome_yields isolatedDeviceUuid cloneIsolation deviceUuid deviceId).bind
        (fun key w₁ hk ↦ ?_) fun e w₁ hk ↦ nomatch hk.1
      obtain ⟨hk, hdb, h₁⟩ := hk
      cases hk
      refine findPeer_yields fun w₂ hdb₂ h₂ ↦ ?_
      rw [hdb]
      cases hp : w.db.peer
          (keyOfSome isolatedDeviceUuid cloneIsolation w.db deviceUuid deviceId) with
      | none => exact .pure (h₁.trans h₂)
      | some peer =>
        refine (ask_evaluates fun _ ↦ rfl).yields.mono fun _ _ hx ↦ hx.2 ▸ ?_
        refine ⟨w₂, h₁.trans h₂, ?_, .refl⟩
        rw [hdb₂, hdb, hp]
        rfl

theorem unbindDevice_yields (userGuid deviceUuid : String) (deviceId : Option String) :
    Yields alone i (unbindDevice isolatedDeviceUuid cloneIsolation userGuid deviceUuid deviceId) w
      fun _ w' ↦ Writes (relinked isolatedDeviceUuid cloneIsolation w.db
        (.unbindDevice userGuid deviceUuid deviceId)) w w' := by
  rw [unbindDevice, relinked]
  split
  · exact .pure .refl
  · refine (resolveSome_yields isolatedDeviceUuid cloneIsolation deviceUuid deviceId).bind
      (fun key w₁ hk ↦ ?_) fun e w₁ hk ↦ nomatch hk.1
    obtain ⟨hk, hdb, h₁⟩ := hk
    cases hk
    refine findPeer_yields fun w₂ hdb₂ h₂ ↦ ?_
    rw [hdb]
    dsimp only
    cases hp : (w.db.peer (keyOfSome isolatedDeviceUuid cloneIsolation w.db deviceUuid
        deviceId)).filter (·.userGuid = some userGuid) with
    | none => exact .pure (h₁.trans h₂)
    | some peer =>
      refine (ask_evaluates fun _ ↦ rfl).yields.mono fun _ _ hx ↦ hx.2 ▸ ?_
      refine ⟨w₂, h₁.trans h₂, ?_, .refl⟩
      rw [hdb₂, hdb, (Option.filter_eq_some_iff.mp hp).1]
      rfl

end AuthDeviceService

namespace SysinfoService

theorem setPresetNote_yields (uuid : String) (presetNote : Option String) :
    Yields alone i (setPresetNote uuid presetNote) w fun _ w' ↦ Calm w w' := by
  rw [setPresetNote]
  cases truthy presetNote with
  | none => exact .pure .refl
  | some presetNote =>
    refine findPeer_yields fun w₁ hdb h₁ ↦ ?_
    split
    · exact .pure h₁
    · refine (ask_evaluates fun _ ↦ rfl).yields.mono fun _ _ hx ↦ hx.2 ▸ h₁.trans ?_
      exact .updatePeer (fun _ ↦ rfl) fun _ ↦ rfl

/-- The group link that a report asks for. -/
def presetGroup (db : Database) (sysinfo : Sysinfo) : Option (String × PeerUpdate) :=
  (db.peer sysinfo.uuid).bind fun _ ↦ (truthy sysinfo.presetDeviceGroupName).bind fun name ↦
    (db.deviceGroups.find? (·.name = name)).map fun deviceGroup ↦
      (sysinfo.uuid, ⟨none, some (some deviceGroup.guid), none, none⟩)

theorem addToPresetGroup_yields {sysinfo : Sysinfo} (hp : (w.db.peer sysinfo.uuid).isSome) :
    Yields alone i (addToPresetGroup sysinfo) w fun _ w' ↦
      Writes (presetGroup w.db sysinfo) w w' := by
  obtain ⟨peer, hp⟩ := Option.isSome_iff_exists.mp hp
  rw [addToPresetGroup, presetGroup, hp, Option.bind_some]
  cases truthy sysinfo.presetDeviceGroupName with
  | none => exact .pure .refl
  | some name =>
    refine (ask_evaluates fun _ ↦ rfl).bind_yields ?_
    rw [Option.bind_some]
    cases w.db.deviceGroups.find? (·.name = name) with
    | none => exact .pure .refl
    | some deviceGroup =>
      refine findPeer_yields fun w₁ hdb h₁ ↦ ?_
      rw [hp]
      refine (ask_evaluates fun _ ↦ rfl).yields.mono fun _ _ hx ↦ hx.2 ▸ ⟨w₁, h₁, ?_, .refl⟩
      rw [hdb, hp]
      rfl

theorem writes_trans {written : Option (String × PeerUpdate)} (h : Calm w w')
    (hw : Writes written w' w'') : Writes written w w'' := by
  cases written with
  | none => exact h.trans hw
  | some link =>
    obtain ⟨w₁, h₁, hp, h₂⟩ := hw
    exact ⟨w₁, h.trans h₁, hp, h₂⟩

theorem trans_writes {written : Option (String × PeerUpdate)} (hw : Writes written w w')
    (h : Calm w' w'') : Writes written w w'' := by
  cases written with
  | none => exact Calm.trans hw h
  | some link =>
    obtain ⟨w₁, h₁, hp, h₂⟩ := hw
    exact ⟨w₁, h₁, hp, h₂.trans h⟩

theorem mergeSysinfo_uuid {key : String} (dto : SysinfoDto) :
    (Devices.mergeSysinfo key dto (w.db.sysinfo key)).uuid = key := by
  cases hs : w.db.sysinfo key with
  | none => rfl
  | some row =>
    have hk : row.uuid = key := by simpa using List.find?_some hs
    exact hk

theorem createSysinfo_yields (dto : SysinfoDto) :
    Yields alone i (createSysinfo isolatedDeviceUuid cloneIsolation dto) w fun _ w' ↦
      Writes (relinked isolatedDeviceUuid cloneIsolation w.db (.sysinfo dto)) w w' := by
  rw [createSysinfo, relinked]
  split
  · exact .pure .refl
  · refine (resolveSome_yields isolatedDeviceUuid cloneIsolation dto.uuid dto.id).bind
      (fun key w₁ hk ↦ ?_) fun e w₁ hk ↦ nomatch hk.1
    obtain ⟨hk, hdb, h₁⟩ := hk
    cases hk
    refine findPeer_yields fun w₂ hdb₂ h₂ ↦ ?_
    rw [hdb]
    dsimp only
    generalize keyOfSome isolatedDeviceUuid cloneIsolation w.db dto.uuid dto.id = key
    cases hp : w.db.peer key with
    | none => exact .pure (h₁.trans h₂)
    | some peer =>
      refine (ask_evaluates fun _ ↦ rfl).bind_yields ?_
      refine (ask_evaluates fun _ ↦ rfl).bind_yields ?_
      rw [show w₂.db.sysinfo key = w.db.sysinfo key from by rw [hdb₂, hdb]]
      have hu : (Devices.mergeSysinfo key dto (w.db.sysinfo key)).uuid = key :=
        mergeSysinfo_uuid dto
      generalize Devices.mergeSysinfo key dto (w.db.sysinfo key) = sysinfo at hu
      subst hu
      have h₃ : Calm w₂ (w₂.saveSysinfo sysinfo) := .of_peers rfl rfl rfl rfl rfl rfl
      have hp₃ : (w₂.saveSysinfo sysinfo).db.peer sysinfo.uuid = some peer := by
        rw [← hp, ← hdb, ← hdb₂]
        rfl
      have hg : presetGroup (w₂.saveSysinfo sysinfo).db sysinfo =
          (truthy sysinfo.presetDeviceGroupName).bind fun name ↦
            (w.db.deviceGroups.find? (·.name = name)).map fun deviceGroup ↦
              (sysinfo.uuid, ⟨none, some (some deviceGroup.guid), none, none⟩) := by
        rw [presetGroup, hp₃, Option.bind_some, World.saveSysinfo, hdb₂, hdb]
      refine (addToPresetGroup_yields (by rw [hp₃]; rfl)).bind (fun _ w₄ h₄ ↦ ?_) fun _ w₄ h₄ ↦ ?_
      · rw [hg] at h₄
        refine (setPresetNote_yields sysinfo.uuid dto.presetNote).bind (fun _ w₅ h₅ ↦ ?_)
          fun _ w₅ h₅ ↦ ?_
        · exact .pure (trans_writes (writes_trans (h₁.trans (h₂.trans h₃)) h₄) h₅)
        · exact trans_writes (writes_trans (h₁.trans (h₂.trans h₃)) h₄) h₅
      · rw [hg] at h₄
        exact writes_trans (h₁.trans (h₂.trans h₃)) h₄

end SysinfoService

namespace HeartbeatService

/-- What a device is sent of its strategy. -/
def delivery (strategy : Option Strategy) (clientModifiedAt : ℤ) : Option Delivery :=
  strategy.bind fun strategy ↦
    if clientModifiedAt < strategy.updatedAt then
      some (strategy.options, (strategy.updatedAt : ℤ))
    else none

theorem resolveStrategy_evaluates (peer : Peer) (clientModifiedAt : ℤ) :
    Evaluates alone i (resolveStrategy peer clientModifiedAt) w
      (.ok (delivery (w.lookup peer) clientModifiedAt)) (w.afterLookup i peer) := by
  refine ((findStrategyForPeer_evaluates peer).bind ?_).tryCatch
  cases w.lookup peer with
  | none => exact .pure
  | some strategy => exact .pure

/-- What becomes of a heartbeat: it is dropped, it registers its device, or it
is answered. -/
inductive Received (data : HeartbeatDto) (w : World) : Option Delivery → World → Prop
  | dropped {w' : World} :
      registered isolatedDeviceUuid cloneIsolation w.db (.heartbeat data) = none →
      (cloneIsolation && (w.db.tombstone data.uuid).any (·.deviceId = data.id)) = true ∨
        w.db.peer (keyOf isolatedDeviceUuid cloneIsolation w.db data.uuid data.id) = none →
      Calm w w' → Received data w none w'
  | registered {w' : World} {key : String} :
      registered isolatedDeviceUuid cloneIsolation w.db (.heartbeat data) = some key →
      w'.db = w.db → Calm w w' → Received data w none (w'.insertPeer key data)
  | answered {w' : World} {i : ℕ} {peer : Peer} :
      registered isolatedDeviceUuid cloneIsolation w.db (.heartbeat data) = none →
      w.db.peer (keyOf isolatedDeviceUuid cloneIsolation w.db data.uuid data.id) = some peer →
      w'.db = w.db → Calm w w' →
      Received data w (delivery (w'.lookup peer) data.modifiedAt) (w'.afterLookup i peer)

theorem deletedBefore_evaluates (data : HeartbeatDto) :
    Evaluates alone i (deletedBefore cloneIsolation data) w
      (.ok (cloneIsolation && (w.db.tombstone data.uuid).any (·.deviceId = data.id))) w := by
  cases cloneIsolation with
  | false => exact .pure
  | true => exact (ask_evaluates fun _ ↦ rfl).bind .pure

theorem handleHeartbeat_yields (data : HeartbeatDto) :
    Yields alone i (handleHeartbeat isolatedDeviceUuid cloneIsolation data) w fun x w' ↦
      ∃ result, x = .ok result ∧ Received isolatedDeviceUuid cloneIsolation data w result w' := by
  have hregistered : registered isolatedDeviceUuid cloneIsolation w.db (.heartbeat data) =
      if cloneIsolation && (w.db.tombstone data.uuid).any (·.deviceId = data.id) then none
      else
        let key := keyOf isolatedDeviceUuid cloneIsolation w.db data.uuid data.id
        if (w.db.peer key).isNone && (w.db.tombstone key).isNone then some key else none := rfl
  refine (deletedBefore_evaluates cloneIsolation data).bind_yields ?_
  split
  · next hd => exact .pure ⟨none, rfl, .dropped (by rw [hregistered, if_pos hd]) (.inl hd) .refl⟩
  · next hd =>
    rw [if_neg hd] at hregistered
    refine (resolveDeviceUuid_yields isolatedDeviceUuid cloneIsolation data.uuid data.id).bind
      (fun key w₁ hk ↦ ?_) fun e w₁ hk ↦ nomatch hk.1
    obtain ⟨hk, hdb, h₁⟩ := hk
    cases hk
    refine findPeer_yields fun w₂ hdb₂ h₂ ↦ ?_
    have hcalm := h₁.trans h₂
    have hsame := hdb₂.trans hdb
    rw [hdb]
    cases hp : w.db.peer (keyOf isolatedDeviceUuid cloneIsolation w.db data.uuid data.id) with
    | none =>
      refine (ask_evaluates fun _ ↦ rfl).bind_yields ?_
      rw [hsame]
      dsimp only at hregistered
      rw [hp] at hregistered
      cases ht : w.db.tombstone
          (keyOf isolatedDeviceUuid cloneIsolation w.db data.uuid data.id) with
      | some tombstone =>
        rw [ht] at hregistered
        exact .pure ⟨none, rfl, .dropped hregistered (.inr hp) hcalm⟩
      | none =>
        rw [ht] at hregistered
        refine (ask_evaluates fun _ ↦ rfl).bind_yields (.pure ⟨none, rfl, ?_⟩)
        exact .registered hregistered hsame hcalm
    | some peer =>
      dsimp only at hregistered
      rw [hp] at hregistered
      refine (ask_evaluates fun _ ↦ rfl).bind_yields ?_
      refine (resolveStrategy_evaluates peer data.modifiedAt).yields.mono fun x w₄ hx ↦ ?_
      obtain ⟨rfl, rfl⟩ := hx
      refine ⟨_, rfl, .answered hregistered hp hsame (hcalm.trans ?_)⟩
      exact .of_peers rfl rfl rfl rfl rfl rfl

end HeartbeatService

end Keys

end RustdeskConsole.Strategies
