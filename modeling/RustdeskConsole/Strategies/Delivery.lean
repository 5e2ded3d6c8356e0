import RustdeskConsole.Strategies.Caching

namespace RustdeskConsole.Strategies

open Collections Effects Handler Relation
open Devices (Failure HeartbeatDto)

variable {i : ℕ} {w w' w₀ : World} {uuid id key : String}

/-- The requests that change strategies and their assignments. -/
def Request.strategic : Request → Bool
  | .createStrategy _ | .updateStrategy .. | .deleteStrategy _ | .assignStrategy ..
  | .unassignStrategy .. => true
  | _ => false

/-- The commands they are made of. -/
def Command.strategic : Command → Bool
  | .findStrategy _ | .findStrategyByName _ | .insertStrategy _ | .saveStrategy _
  | .removeStrategy _ | .assign .. | .unassign .. | .cacheObject _ | .forgetStrategy _
  | .invalidateDeviceStrategyCache _ => true
  | _ => false

/-- Both worlds know the same devices by the same ids, and the same deleted ones. -/
structure SameRoster (w w' : World) : Prop where
  ids : ∀ uuid, (w'.db.peer uuid).map (·.id) = (w.db.peer uuid).map (·.id)
  tombstones : w'.db.tombstones = w.db.tombstones

namespace SameRoster

theorem of_peers (hp : w'.db.peers = w.db.peers) (ht : w'.db.tombstones = w.db.tombstones) :
    SameRoster w w' := by
  refine ⟨fun uuid ↦ ?_, ht⟩
  rw [Database.peer, hp, Database.peer]

theorem of_map {f : Peer → Peer} (hp : w'.db.peers = w.db.peers.map f)
    (hu : ∀ row, (f row).uuid = row.uuid) (hi : ∀ row, (f row).id = row.id)
    (ht : w'.db.tombstones = w.db.tombstones) : SameRoster w w' := by
  refine ⟨fun uuid ↦ ?_, ht⟩
  rw [Database.peer, hp, find?_map_key hu, Option.map_map]
  exact congrArg (fun g ↦ Option.map g _) (funext hi)

theorem setStrategies {type : TargetType} {selected : String × Option String → Bool}
    {value : Option String} :
    SameRoster w (w.commit i (w.db.setStrategies type selected value)) := by
  cases type with
  | device => exact of_map rfl (fun _ ↦ rfl) (fun _ ↦ rfl) rfl
  | user => exact of_peers rfl rfl
  | deviceGroup => exact of_peers rfl rfl

theorem exec {c : Command} (hc : c.strategic = true) {o : Choice} {r : Reply c}
    (he : exec i c o w = (w', some r)) : SameRoster w w' := by
  cases c with
  | findStrategy => cases he; exact of_peers rfl rfl
  | findStrategyByName => cases he; exact of_peers rfl rfl
  | cacheObject => cases he; exact of_peers rfl rfl
  | forgetStrategy => cases he; exact of_peers rfl rfl
  | removeStrategy => cases he; exact of_map rfl (fun _ ↦ rfl) (fun _ ↦ rfl) rfl
  | invalidateDeviceStrategyCache deviceUuid =>
    cases he
    rw [World.invalidateDeviceStrategyCache]
    split <;> exact of_peers rfl rfl
  | insertStrategy draft =>
    rw [Strategies.exec, World.insertStrategy] at he
    dsimp only at he
    split at he
    · cases he
    · split at he <;> cases he <;> exact of_peers rfl rfl
  | saveStrategy saved =>
    obtain ⟨_, -, rfl⟩ | ⟨strategy, -, -, rfl⟩ :=
      StrategyService.saveStrategy_cases (map_some_inj he)
    · exact of_peers rfl rfl
    · exact of_peers rfl rfl
  | assign strategyGuid type targets =>
    have he := map_some_inj he
    dsimp only [World.assign] at he
    split at he
    · cases he
      exact of_peers rfl rfl
    · split at he
      · cases he
        exact of_peers rfl rfl
      · cases he
        exact setStrategies
  | unassign strategyGuid type targets =>
    have he := map_some_inj he
    dsimp only [World.unassign] at he
    split at he
    · cases he
      exact of_peers rfl rfl
    · split at he
      · cases he
        exact of_peers rfl rfl
      · cases he
        exact setStrategies
  | authorize => cases hc
  | findUser => cases hc
  | findUserByName => cases hc
  | insertUser => cases hc
  | saveUser => cases hc
  | removeUser => cases hc
  | findDeviceGroup => cases hc
  | findDeviceGroupByName => cases hc
  | insertDeviceGroup => cases hc
  | saveDeviceGroup => cases hc
  | removeDeviceGroup => cases hc
  | findPeer => cases hc
  | findPeers => cases hc
  | updatePeer => cases hc
  | updateDevice => cases hc
  | deletePeer => cases hc
  | insertPeer => cases hc
  | bufferPeerUpdate => cases hc
  | flush => cases hc
  | findTombstone => cases hc
  | liftBan => cases hc
  | removeTombstone => cases hc
  | findSysinfo => cases hc
  | saveSysinfo => cases hc
  | cachedStrategy => cases hc
  | cacheStrategy => cases hc
  | answer => cases hc

end SameRoster

section Strategic

open StrategyService

variable {P : World → Prop}

/-- What the commands keep is kept by every operation on strategies. -/
theorem strategic_maintains (isolatedDeviceUuid : String → String → String) (cloneIsolation : Bool)
    (hP : ∀ c : Command, c.strategic = true → ∀ w o w' r, P w →
      alone.exec i c o w = (w', some r) → P w') {request : Request}
    (hr : request.strategic = true) :
    Maintains alone i P (serve isolatedDeviceUuid cloneIsolation request) := by
  have hask : ∀ c : Command, c.strategic = true → Maintains alone i P (ask c) :=
    fun c hc ↦ .invoke (hP c hc)
  cases request with
  | createStrategy dto =>
    refine maintains_ignore (.bind (hask _ rfl) fun existing ↦ ?_)
    exact .bind (maintains_assert _ _) fun _ ↦ .invoke (hP _ rfl)
  | updateStrategy guid dto =>
    refine maintains_ignore (.bind (hask _ rfl) fun found ↦ ?_)
    refine .bind (maintains_require _ _) fun strategy ↦ .bind ?_ fun _ ↦ ?_
    · cases dto.name with
      | none => exact .pure ()
      | some name => exact .bind (hask _ rfl) fun existing ↦ maintains_assert _ _
    · refine .bind (.invoke (hP _ rfl)) fun saved ↦ ?_
      exact .bind (hask _ rfl) fun _ ↦ .pure saved
  | deleteStrategy guid =>
    refine .bind (hask _ rfl) fun found ↦ .bind (maintains_require _ _) fun strategy ↦ ?_
    exact .bind (hask _ rfl) fun _ ↦ hask _ rfl
  | assignStrategy strategyGuid type targets =>
    refine maintains_ignore (.bind (.invoke (hP _ rfl)) fun assignment ↦ ?_)
    exact .bind (hask _ rfl) fun _ ↦ .pure assignment
  | unassignStrategy strategyGuid type targets =>
    refine maintains_ignore (.bind (.invoke (hP _ rfl)) fun assignment ↦ ?_)
    exact .bind (hask _ rfl) fun _ ↦ .pure assignment
  | findStrategyForDevice => cases hr
  | createDeviceGroup => cases hr
  | updateDeviceGroup => cases hr
  | deleteDeviceGroup => cases hr
  | addDevicesToGroup => cases hr
  | removeDevicesFromGroup => cases hr
  | updateDevice => cases hr
  | deleteDevice => cases hr
  | restoreTombstone => cases hr
  | createUser => cases hr
  | updateUser => cases hr
  | deleteUser => cases hr
  | bindDevice => cases hr
  | unbindDevice => cases hr
  | sysinfo => cases hr
  | heartbeat => cases hr
  | flush => cases hr

end Strategic

section Device

variable (isolatedDeviceUuid : String → String → String) (cloneIsolation : Bool)

/-- The device with this uuid and id has a row, and was not deleted before
isolation was turned on. -/
structure Registered (uuid id key : String) (w : World) : Prop where
  filed : keyOf isolatedDeviceUuid cloneIsolation w.db uuid id = key
  row : (w.db.peer key).isSome
  alive : (cloneIsolation && (w.db.tombstone uuid).any (·.deviceId = id)) = false

variable {isolatedDeviceUuid cloneIsolation} in
theorem keyOf_congr (h : SameRoster w w') : keyOf isolatedDeviceUuid cloneIsolation w'.db uuid id =
    keyOf isolatedDeviceUuid cloneIsolation w.db uuid id := by
  have hsome : ∀ uuid, (w'.db.peer uuid).isSome = (w.db.peer uuid).isSome := by
    intro uuid
    have hm := congrArg Option.isSome (h.ids uuid)
    rwa [Option.isSome_map, Option.isSome_map] at hm
  have hany : (w'.db.peer uuid).any (·.id = id) = (w.db.peer uuid).any (·.id = id) := by
    have hm := congrArg (Option.any fun name ↦ decide (name = id)) (h.ids uuid)
    rwa [Option.any_map, Option.any_map] at hm
  rw [keyOf, keyOf, hsome, hany]

variable {isolatedDeviceUuid cloneIsolation} in
theorem Registered.congr (hr : Registered isolatedDeviceUuid cloneIsolation uuid id key w)
    (h : SameRoster w w') : Registered isolatedDeviceUuid cloneIsolation uuid id key w' where
  filed := (keyOf_congr h).trans hr.filed
  row := by
    have hm := congrArg Option.isSome (h.ids key)
    rw [Option.isSome_map, Option.isSome_map] at hm
    exact hm.trans hr.row
  alive := by
    rw [Database.tombstone, h.tombstones]
    exact hr.alive

/-- What a device keeps of what it was sent: the time stamp it echoes and the
configuration. -/
structure Device where
  modifiedAt : ℤ
  config : Option ConfigOptions

def Device.receive (device : Device) : Option HeartbeatService.Delivery → Device
  | none => device
  | some (config, modifiedAt) => ⟨modifiedAt, some config⟩

/-- The device has sent a heartbeat with its time stamp and has the reply. -/
def Beats (uuid id : String) (s s' : World × Device) : Prop :=
  ∃ i ver result, Completes alone i (HeartbeatService.handleHeartbeat isolatedDeviceUuid
    cloneIsolation ⟨id, uuid, ver, s.2.modifiedAt⟩) s.1 (.ok result) s'.1 ∧
    s'.2 = s.2.receive result

/-- An operation on strategies, from its start to its end, or a heartbeat. -/
inductive DeliveryStep (uuid id : String) : World × Device → World × Device → Prop
  | operation {request : Request} {w w' : World} {device : Device} : request.strategic = true →
      Served isolatedDeviceUuid cloneIsolation request w w' →
      DeliveryStep uuid id (w, device) (w', device)
  | heartbeat {s s' : World × Device} : Beats isolatedDeviceUuid cloneIsolation uuid id s s' →
      DeliveryStep uuid id s s'

variable {isolatedDeviceUuid cloneIsolation} {s s' : World × Device} {peer : Peer}

/-- A heartbeat of a registered device is answered from the tables. -/
theorem beats_answered (hb : Beats isolatedDeviceUuid cloneIsolation uuid id s s')
    (hr : Registered isolatedDeviceUuid cloneIsolation uuid id key s.1) (hc : CoherentOff ∅ s.1) :
    CoherentOff ∅ s'.1 ∧ s'.1.db = s.1.db ∧ ∀ peer, s.1.db.peer key = some peer →
      s'.2 = s.2.receive (HeartbeatService.delivery (s.1.db.resolve peer) s.2.modifiedAt) := by
  obtain ⟨i, ver, result, hcomplete, hdevice⟩ := hb
  obtain ⟨_, hx, hreceived⟩ := HeartbeatService.handleHeartbeat_yields isolatedDeviceUuid
    cloneIsolation _ _ _ hcomplete
  cases hx
  obtain ⟨peer, hp⟩ := Option.isSome_iff_exists.mp hr.row
  generalize hd : s'.1 = w' at hreceived
  cases hreceived with
  | dropped hn hdropped hcalm =>
    rcases hdropped with hdead | hnone
    · rw [hr.alive] at hdead
      cases hdead
    · rw [hr.filed, hp] at hnone
      cases hnone
  | @registered w₁ key' hk hdb hcalm =>
    rw [registered, if_neg (by simp [hr.alive])] at hk
    dsimp only at hk
    rw [hr.filed, hp] at hk
    cases hk
  | @answered w₁ j peer' hn hp' hdb hcalm =>
    rw [hr.filed, hp] at hp'
    cases hp'
    have hkey := Database.peer_uuid hp
    have hp₁ : w₁.db.peer peer.uuid = some peer := by rw [hdb, hkey, hp]
    have hc₁ := hcalm.coherent hc
    have hlookup : w₁.lookup peer = s.1.db.resolve peer := by
      rw [(hc₁.lookup_eq hp₁).mpr (hc₁.agrees _ (Set.notMem_empty _)), hdb]
    refine ⟨hc₁.afterLookup hp₁, ?_, fun peer₁ hp₁ ↦ ?_⟩
    · exact World.db_afterLookup.trans hdb
    · rw [hp] at hp₁
      cases hp₁
      rw [hdevice, hlookup]

theorem step_invariant (hs : DeliveryStep isolatedDeviceUuid cloneIsolation uuid id s s')
    (hr : Registered isolatedDeviceUuid cloneIsolation uuid id key s.1) (hc : CoherentOff ∅ s.1) :
    Registered isolatedDeviceUuid cloneIsolation uuid id key s'.1 ∧ CoherentOff ∅ s'.1 := by
  cases hs with
  | @operation request w w' device hrequest hw =>
    constructor
    · obtain ⟨i, x, hcomplete⟩ := hw
      exact strategic_maintains isolatedDeviceUuid cloneIsolation
        (fun c hc w o w' r h he ↦ h.congr (SameRoster.exec hc he)) hrequest w hr x w' hcomplete
    · have hnone : relinked isolatedDeviceUuid cloneIsolation w.db request = none ∧
          registered isolatedDeviceUuid cloneIsolation w.db request = none ∧
          removed request = none := by
        cases request <;> first | exact ⟨rfl, rfl, rfl⟩ | cases hrequest
      obtain ⟨⟨S, hS⟩, hiff⟩ := served_leaves hc hw
      exact coherentOff_of_coherent hS (hiff.mpr (prudent_of_none hnone.1 hnone.2.1 hnone.2.2))
  | heartbeat hb =>
    obtain ⟨hc', hdb, -⟩ := beats_answered hb hr hc
    refine ⟨hr.congr (.of_peers ?_ ?_), hc'⟩
    · rw [hdb]
    · rw [hdb]

theorem run_invariant (hb : Blank w₀)
    (hr : Registered isolatedDeviceUuid cloneIsolation uuid id key w₀) {device : Device}
    (hs : ReflTransGen (DeliveryStep isolatedDeviceUuid cloneIsolation uuid id) (w₀, device) s) :
    Registered isolatedDeviceUuid cloneIsolation uuid id key s.1 ∧ CoherentOff ∅ s.1 := by
  induction hs with
  | refl => exact ⟨hr, .blank hb.referential rfl hb.objects hb.devices⟩
  | tail _ hstep ih => exact step_invariant hstep ih.1 ih.2

open HeartbeatService in
/-- The second of two heartbeats has nothing more to say. -/
theorem receive_twice (device : Device) (strategy : Strategy) :
    ((device.receive (delivery (some strategy) device.modifiedAt)).receive
      (delivery (some strategy)
        (device.receive (delivery (some strategy) device.modifiedAt)).modifiedAt)).config =
      if device.modifiedAt < strategy.updatedAt then some strategy.options else device.config := by
  by_cases h : device.modifiedAt < strategy.updatedAt
  · simp only [delivery, Option.bind_some, if_pos h, Device.receive, lt_irrefl, if_false]
  · simp only [delivery, Option.bind_some, if_neg h, Device.receive]

/-- A device has what it should have after two heartbeats exactly if the
strategy is newer than what the device has seen, or what it has already. -/
theorem delivery_converges (hb : Blank w₀)
    (hr : Registered isolatedDeviceUuid cloneIsolation uuid id key w₀)
    (hs : ReflTransGen (DeliveryStep isolatedDeviceUuid cloneIsolation uuid id) (w₀, ⟨0, none⟩) s)
    {s₁ s₂ : World × Device} (h₁ : Beats isolatedDeviceUuid cloneIsolation uuid id s s₁)
    (h₂ : Beats isolatedDeviceUuid cloneIsolation uuid id s₁ s₂) (hp : s.1.db.peer key = some peer)
    {strategy : Strategy} (hstrategy : Completes alone i
      (StrategyService.resolveStrategyForPeer peer) s.1 (.ok (some strategy)) w') :
    s₂.2.config = some strategy.options ↔
      s.2.modifiedAt < strategy.updatedAt ∨ s.2.config = some strategy.options := by
  obtain ⟨hreg, hc⟩ := run_invariant hb hr hs
  obtain ⟨heq, -⟩ := (resolveStrategyForPeer_evaluates peer).yields _ _ hstrategy
  have hresolve : s.1.db.resolve peer = some strategy := (Except.ok.inj heq).symm
  obtain ⟨hreg₁, -⟩ := step_invariant (.heartbeat h₁) hreg hc
  obtain ⟨hc₁, hdb₁, hd₁⟩ := beats_answered h₁ hreg hc
  obtain ⟨-, -, hd₂⟩ := beats_answered h₂ hreg₁ hc₁
  have hfirst := hd₁ peer hp
  have hsecond := hd₂ peer (by rw [hdb₁, hp])
  rw [hresolve] at hfirst
  rw [hdb₁, hresolve, hfirst] at hsecond
  rw [hsecond, receive_twice]
  by_cases h : s.2.modifiedAt < strategy.updatedAt
  · simp [h]
  · simp [h]

/-- A heartbeat that meets with no failure. -/
def beat (uuid id : String) (s : World × Device) : Option (World × Device) :=
  match alone.complete 0 (List.replicate 20 ⟨0, "", .ok ()⟩) ((HeartbeatService.handleHeartbeat
    (fun uuid _ ↦ uuid) false ⟨id, uuid, 0, s.2.modifiedAt⟩).start ()) s.1 with
  | some ((.ok result, ()), w) => some (w, s.2.receive result)
  | _ => none

theorem beats_of_beat (h : beat uuid id s = some s') :
    Beats (fun uuid _ ↦ uuid) false uuid id s s' := by
  rw [beat] at h
  split at h
  · next result w hc =>
    cases h
    exact ⟨0, 0, result, Serves.of_complete hc, rfl⟩
  · cases h

/-- A device without a strategy, an older and a newer strategy. -/
def twoStrategies : World where
  db := {
    peers := [⟨"d", "1", none, none, none, none, 0, 0⟩]
    users := []
    deviceGroups := []
    strategies := [⟨"s", "older", "", some [("key", "old")], 5⟩,
      ⟨"t", "newer", "", some [("key", "new")], 9⟩]
    tombstones := []
    sysinfos := [] }
  peerBuffer := .empty
  strategyObjectCache := .empty
  deviceStrategyCache := .empty
  history := []

theorem two_blank : Blank twoStrategies := by
  refine ⟨fun guid hg ↦ ?_, rfl, rfl⟩
  simp [Database.references, twoStrategies] at hg

theorem two_registered : Registered (fun uuid _ ↦ uuid) false "d" "1" "d" twoStrategies :=
  ⟨rfl, by decide +kernel, rfl⟩

def assigned (strategyGuid : String) (s : World × Device) : World × Device :=
  ((afterRequest (fun uuid _ ↦ uuid) false s.1 (.assignStrategy strategyGuid .device ["d"])).getD
    s.1, s.2)

def beaten (s : World × Device) : World × Device := (beat "d" "1" s).getD s

/-- The newer strategy is assigned and delivered, then the older one is assigned. -/
def reassigned : World × Device := assigned "s" (beaten (assigned "t" (twoStrategies, ⟨0, none⟩)))

theorem assigned_step (strategyGuid : String) (s : World × Device)
    (h : (afterRequest (fun uuid _ ↦ uuid) false s.1
      (.assignStrategy strategyGuid .device ["d"])).isSome = true) :
    DeliveryStep (fun uuid _ ↦ uuid) false "d" "1" s (assigned strategyGuid s) := by
  obtain ⟨w, hw⟩ := Option.isSome_iff_exists.mp h
  rw [assigned, hw, Option.getD_some]
  exact .operation rfl (served_afterRequest hw)

theorem beaten_beats (h : (beat "d" "1" s).isSome = true) :
    Beats (fun uuid _ ↦ uuid) false "d" "1" s (beaten s) := by
  obtain ⟨s', hs'⟩ := Option.isSome_iff_exists.mp h
  rw [beaten, hs', Option.getD_some]
  exact beats_of_beat hs'

/-- The newer strategy is assigned. -/
def firstAssigned : World × Device := assigned "t" (twoStrategies, ⟨0, none⟩)

theorem firstAssigned_run : ReflTransGen (DeliveryStep (fun uuid _ ↦ uuid) false "d" "1")
    (twoStrategies, ⟨0, none⟩) firstAssigned :=
  .single (assigned_step "t" _ (by decide +kernel))

theorem reassigned_run : ReflTransGen (DeliveryStep (fun uuid _ ↦ uuid) false "d" "1")
    (twoStrategies, ⟨0, none⟩) reassigned := by
  have hbeat := beaten_beats (s := firstAssigned) (by decide +kernel)
  have hassign := assigned_step "s" (beaten firstAssigned) (by decide +kernel)
  exact .tail (.tail firstAssigned_run (.heartbeat hbeat)) hassign

def newerPeer : Peer := ⟨"d", "1", none, none, some "t", none, 0, 0⟩
def newerStrategy : Strategy := ⟨"t", "newer", "", some [("key", "new")], 9⟩
def olderPeer : Peer := ⟨"d", "1", none, none, some "s", none, 0, 0⟩
def olderStrategy : Strategy := ⟨"s", "older", "", some [("key", "old")], 5⟩

theorem completes_resolve {strategy : Strategy} (h : w.db.resolve peer = some strategy) :
    Completes alone 0 (StrategyService.resolveStrategyForPeer peer) w (.ok (some strategy)) w := by
  rw [← h]
  exact (resolveStrategyForPeer_evaluates peer).completes

theorem newer_converges : (beaten (beaten firstAssigned)).2.config = some newerStrategy.options ↔
    firstAssigned.2.modifiedAt < newerStrategy.updatedAt ∨
      firstAssigned.2.config = some newerStrategy.options :=
  delivery_converges two_blank two_registered firstAssigned_run
    (beaten_beats (by decide +kernel)) (beaten_beats (by decide +kernel))
    (show firstAssigned.1.db.peer "d" = some newerPeer by decide +kernel)
    (completes_resolve (show firstAssigned.1.db.resolve newerPeer = some newerStrategy by
      decide +kernel))

/-- An older strategy that takes the place of a newer one never reaches the device. -/
theorem delivery_missed : ¬ ∀ (isolatedDeviceUuid : String → String → String)
    (cloneIsolation : Bool) (uuid id key : String) (w₀ w' : World) (s s₁ s₂ : World × Device)
    (i : ℕ) (peer : Peer) (strategy : Strategy), Blank w₀ →
      Registered isolatedDeviceUuid cloneIsolation uuid id key w₀ →
      ReflTransGen (DeliveryStep isolatedDeviceUuid cloneIsolation uuid id) (w₀, ⟨0, none⟩) s →
      Beats isolatedDeviceUuid cloneIsolation uuid id s s₁ →
      Beats isolatedDeviceUuid cloneIsolation uuid id s₁ s₂ → s.1.db.peer key = some peer →
      Completes alone i (StrategyService.resolveStrategyForPeer peer) s.1 (.ok (some strategy)) w' →
      s₂.2.config = some strategy.options := by
  intro hclaim
  have hfinal := hclaim _ _ _ _ _ _ _ _ _ _ 0 olderPeer olderStrategy two_blank two_registered
    reassigned_run (beaten_beats (by decide +kernel)) (beaten_beats (by decide +kernel))
    (by decide +kernel) (completes_resolve (by decide +kernel))
  have hkept : (beaten (beaten reassigned)).2.config = some newerStrategy.options := by
    decide +kernel
  rw [hkept] at hfinal
  exact absurd hfinal (by decide)

end Device

end RustdeskConsole.Strategies
