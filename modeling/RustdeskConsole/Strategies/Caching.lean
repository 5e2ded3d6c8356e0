import RustdeskConsole.Strategies.Reports

namespace RustdeskConsole.Strategies

open Collections Effects Relation
open Devices (Failure truthy HeartbeatDto)

variable {i : ℕ} {w w' w₀ : World} {request : Request} {peer : Peer}

/-- For every registered device the two ways to find its strategy agree. -/
def Coherent (w : World) : Prop :=
  ∀ i peer x y w₁ w₂, w.db.peer peer.uuid = some peer →
    Completes alone i (StrategyService.findStrategyForPeer peer) w x w₁ →
    Completes alone i (StrategyService.resolveStrategyForPeer peer) w y w₂ → x = y

/-- The server has just started over tables without dangling references. -/
structure Blank (w : World) : Prop where
  referential : w.db.Referential
  objects : w.strategyObjectCache = .empty
  devices : w.deviceStrategyCache = .empty

theorem coherent_iff (h : Sound w) : Coherent w ↔ ∀ uuid, Agrees w uuid := by
  have hlookup : Coherent w ↔
      ∀ peer, w.db.peer peer.uuid = some peer → w.lookup peer = w.db.resolve peer := by
    constructor
    · intro hc peer hp
      exact Except.ok.inj (hc 0 peer _ _ _ _ hp
        (findStrategyForPeer_evaluates peer).completes
        (resolveStrategyForPeer_evaluates peer).completes)
    · intro hl i peer x y w₁ w₂ hp hx hy
      obtain ⟨rfl, -⟩ := (findStrategyForPeer_evaluates peer).yields x w₁ hx
      obtain ⟨rfl, -⟩ := (resolveStrategyForPeer_evaluates peer).yields y w₂ hy
      rw [hl peer hp]
  rw [hlookup]
  constructor
  · intro hl uuid peer cached hp hc
    have hu := Database.peer_uuid hp
    subst hu
    exact (h.lookup_eq hp).mp (hl peer hp) peer cached hp hc
  · intro ha peer hp
    exact (h.lookup_eq hp).mpr (ha peer.uuid)

section Served

variable (isolatedDeviceUuid : String → String → String) (cloneIsolation : Bool)

/-- A request is served, in whatever way, while nothing else goes on. -/
def Served (request : Request) (w w' : World) : Prop :=
  ∃ i x, Completes alone i (serve isolatedDeviceUuid cloneIsolation request) w x w'

/-- A device that has an entry in the cache is not given links that lead to another
strategy by a report, not registered where the entry names a strategy, and does not
lose a user whose strategy it had. -/
structure Prudent (request : Request) (w : World) : Prop where
  relinked : ∀ uuid data peer,
    relinked isolatedDeviceUuid cloneIsolation w.db request = some (uuid, data) →
    w.db.peer uuid = some peer → (w.deviceStrategyCache.get? uuid).isSome →
    w.db.resolve (data.apply peer) = w.db.resolve peer
  registered : ∀ uuid guid,
    registered isolatedDeviceUuid cloneIsolation w.db request = some uuid →
    w.deviceStrategyCache.get? uuid ≠ some (some guid)
  orphaned : ∀ guid peer, removed request = some guid → w.db.peer peer.uuid = some peer →
    peer.userGuid = some guid → (w.deviceStrategyCache.get? peer.uuid).isSome →
    w.db.resolve { peer with userGuid := none } = w.db.resolve peer

variable {isolatedDeviceUuid cloneIsolation}

theorem prudent_of_none (hl : relinked isolatedDeviceUuid cloneIsolation w.db request = none)
    (hr : registered isolatedDeviceUuid cloneIsolation w.db request = none)
    (hd : removed request = none) : Prudent isolatedDeviceUuid cloneIsolation request w where
  relinked _ _ _ h := by
    rw [hl] at h
    cases h
  registered _ _ h := by
    rw [hr] at h
    cases h
  orphaned _ _ h := by
    rw [hd] at h
    cases h

theorem agrees_insertPeer {uuid : String} {data : HeartbeatDto} :
    Agrees (w.insertPeer uuid data) uuid ↔
      ∀ guid, w.deviceStrategyCache.get? uuid ≠ some (some guid) := by
  have hp : (w.insertPeer uuid data).db.peer uuid =
      some ⟨uuid, data.id, none, none, none, none, data.ver, data.modifiedAt⟩ := by
    rw [Database.peer, World.insertPeer, List.find?_cons_of_pos (by simp)]
  constructor
  · intro ha guid hc
    cases ha _ _ hp hc
  · intro hn peer cached hp' hc
    rw [hp] at hp'
    cases hp'
    cases cached with
    | none => rfl
    | some guid => exact absurd hc (hn guid)

/-- Where one device is left to look at, it decides about all. -/
theorem coherent_iff_of_off {uuid : String} (h : CoherentOff {uuid} w) :
    Coherent w ↔ Agrees w uuid := by
  rw [coherent_iff h.toSound]
  refine ⟨fun ha ↦ ha uuid, fun ha uuid' ↦ ?_⟩
  by_cases hu : uuid' = uuid
  · exact hu ▸ ha
  · exact h.agrees uuid' hu

theorem CoherentOff.coherent (h : CoherentOff ∅ w) : Coherent w :=
  (coherent_iff h.toSound).mpr fun uuid ↦ h.agrees uuid (Set.notMem_empty _)

theorem coherentOff_of_coherent {S : Set String} (h : CoherentOff S w) (hc : Coherent w) :
    CoherentOff ∅ w := ⟨h.toSound, fun uuid _ ↦ (coherent_iff h.toSound).mp hc uuid⟩

/-- What a request leaves, and when that is coherent. -/
abbrev Leaves (isolatedDeviceUuid : String → String → String) (cloneIsolation : Bool)
    (request : Request) (w w' : World) : Prop :=
  (∃ S, CoherentOff S w') ∧
    (Coherent w' ↔ Prudent isolatedDeviceUuid cloneIsolation request w)

theorem leaves_coherent (h : CoherentOff ∅ w')
    (hl : relinked isolatedDeviceUuid cloneIsolation w.db request = none)
    (hr : registered isolatedDeviceUuid cloneIsolation w.db request = none)
    (hd : removed request = none) : Leaves isolatedDeviceUuid cloneIsolation request w w' :=
  ⟨⟨∅, h⟩, fun _ ↦ prudent_of_none hl hr hd, fun _ ↦ h.coherent⟩

theorem leaves_writes (h : CoherentOff ∅ w)
    (hd : ∀ uuid data, relinked isolatedDeviceUuid cloneIsolation w.db request = some (uuid, data) →
      data.strategyGuid = none)
    (hr : registered isolatedDeviceUuid cloneIsolation w.db request = none)
    (hn : removed request = none)
    (hw : Writes (relinked isolatedDeviceUuid cloneIsolation w.db request) w w') :
    Leaves isolatedDeviceUuid cloneIsolation request w w' := by
  cases hl : relinked isolatedDeviceUuid cloneIsolation w.db request with
  | none =>
    rw [hl] at hw
    exact leaves_coherent (Calm.coherent hw h) hl hr hn
  | some link =>
    obtain ⟨uuid, data⟩ := link
    rw [hl] at hw
    have hrelinked : Relinked uuid data w w' := hw
    have hoff := hrelinked.coherent (hd uuid data hl) h
    refine ⟨⟨_, hoff⟩, ?_⟩
    rw [coherent_iff_of_off hoff, hrelinked.agrees_iff h]
    constructor
    · intro hsame
      refine ⟨fun uuid' data' peer hl' hp hc ↦ ?_, fun uuid' guid hr' ↦ ?_, fun guid peer hd' ↦ ?_⟩
      · rw [hl] at hl'
        cases hl'
        exact hsame peer hp hc
      · rw [hr] at hr'
        cases hr'
      · rw [hn] at hd'
        cases hd'
    · intro hprudent peer hp hc
      exact hprudent.relinked uuid data peer hl hp hc

theorem leaves_heartbeat {data : HeartbeatDto} {result : Option HeartbeatService.Delivery}
    (h : CoherentOff ∅ w)
    (hr : HeartbeatService.Received isolatedDeviceUuid cloneIsolation data w result w') :
    Leaves isolatedDeviceUuid cloneIsolation (.heartbeat data) w w' := by
  cases hr with
  | dropped hn _ hcalm => exact leaves_coherent (hcalm.coherent h) rfl hn rfl
  | @answered w₁ j peer hn hp hdb hcalm =>
    refine leaves_coherent ((hcalm.coherent h).afterLookup ?_) rfl hn rfl
    rw [hdb, Database.peer_uuid hp]
    exact hp
  | @registered w₁ key hk hdb hcalm =>
    have h₁ := hcalm.coherent h
    have hoff : CoherentOff {key} (w₁.insertPeer key data) :=
      (h₁.write (Database.keeps_insertPeer h₁.referential _ rfl)).mono (Set.empty_union _).subset
    refine ⟨⟨_, hoff⟩, ?_⟩
    rw [coherent_iff_of_off hoff, agrees_insertPeer, hcalm.devices]
    constructor
    · intro hn
      refine ⟨fun _ _ _ hl ↦ (nomatch hl), fun uuid guid hk' ↦ ?_, fun _ _ hd ↦ (nomatch hd)⟩
      rw [hk] at hk'
      cases hk'
      exact hn guid
    · intro hprudent guid
      exact hprudent.registered key guid hk

theorem leaves_stays (h : CoherentOff ∅ w)
    (hs : ∀ i, Stays i (serve isolatedDeviceUuid cloneIsolation request))
    (hl : relinked isolatedDeviceUuid cloneIsolation w.db request = none)
    (hr : registered isolatedDeviceUuid cloneIsolation w.db request = none)
    (hd : removed request = none)
    (hw : Served isolatedDeviceUuid cloneIsolation request w w') :
    Leaves isolatedDeviceUuid cloneIsolation request w w' := by
  obtain ⟨i, x, hc⟩ := hw
  exact leaves_coherent (hs i w h x w' hc) hl hr hd

theorem coherent_removeUser {guid : String} (h : CoherentOff ∅ w) :
    Coherent { w with db := w.db.removeUser guid } ↔ ∀ peer, w.db.peer peer.uuid = some peer →
      peer.userGuid = some guid → (w.deviceStrategyCache.get? peer.uuid).isSome →
      w.db.resolve { peer with userGuid := none } = w.db.resolve peer := by
  have hoff := h.write (@Database.keeps_removeUser _ guid h.referential)
  have hresolve : ∀ peer : Peer, peer.userGuid = some guid →
      (w.db.removeUser guid).resolve peer = w.db.resolve { peer with userGuid := none } := by
    intro peer hg
    rw [Database.resolve_removeUser, hg, Option.filter_some_neg (by simp)]
  rw [coherent_iff hoff.toSound]
  constructor
  · intro ha peer hp hg hc
    obtain ⟨cached, hc⟩ := Option.isSome_iff_exists.mp hc
    have hnew := ha peer.uuid peer cached hp hc
    rw [hresolve peer hg, h.agrees peer.uuid (Set.notMem_empty _) peer cached hp hc] at hnew
    exact (Database.resolve_eq_of_guid hnew).symm
  · intro hsame uuid peer cached hp hc
    have hu := Database.peer_uuid hp
    subst hu
    by_cases hg : peer.userGuid = some guid
    · rw [hresolve peer hg, hsame peer hp hg (by rw [hc]; rfl)]
      exact h.agrees peer.uuid (Set.notMem_empty _) peer cached hp hc
    · refine hoff.agrees peer.uuid ?_ peer cached hp hc
      rintro (hu | ⟨peer', hp', hg'⟩)
      · exact hu
      · obtain rfl := Option.some.inj (hp'.symm.trans hp)
        exact hg hg'

theorem removeUser_of_none {guid : String} (hn : w.db.user guid = none) :
    w.db.removeUser guid = w.db := by
  have hall : w.db.users.filter (·.guid ≠ guid) = w.db.users :=
    List.filter_eq_self.mpr fun row hm ↦ by simpa using List.find?_eq_none.mp hn row hm
  rw [Database.removeUser, hall]

theorem leaves_deleteUser {guid : String} {refusal : Option Failure} (h : CoherentOff ∅ w)
    (hw : Served isolatedDeviceUuid cloneIsolation (.deleteUser guid refusal) w w') :
    Leaves isolatedDeviceUuid cloneIsolation (.deleteUser guid refusal) w w' := by
  have hworld : w' = (w.removeUser guid refusal).1 := by
    obtain ⟨i, x, hc⟩ := hw
    refine (Yields.invoke (Q := fun _ w' ↦ w' = (w.removeUser guid refusal).1)
      fun o w₁ r he ↦ ?_) x w' hc
    exact (congrArg Prod.fst (map_some_inj he)).symm
  cases refusal with
  | some failure =>
    have hw' : w' = w := by
      rw [hworld]
      cases hu : w.db.user guid <;> simp only [World.removeUser, hu]
    exact leaves_coherent (hw' ▸ h) rfl rfl rfl
  | none =>
    have hw' : w' = { w with db := w.db.removeUser guid } := by
      rw [hworld]
      cases hu : w.db.user guid with
      | none => simp only [World.removeUser, hu, removeUser_of_none hu]
      | some user => simp only [World.removeUser, hu]
    subst hw'
    refine ⟨⟨_, h.write (Database.keeps_removeUser h.referential)⟩, ?_⟩
    rw [coherent_removeUser h]
    constructor
    · intro hsame
      refine ⟨fun _ _ _ hl ↦ (nomatch hl), fun _ _ hr ↦ (nomatch hr), fun guid' peer hd ↦ ?_⟩
      cases hd
      exact hsame peer
    · intro hprudent peer
      exact hprudent.orphaned guid peer rfl

open StrategyService DeviceGroupService

theorem served_leaves (h : CoherentOff ∅ w)
    (hw : Served isolatedDeviceUuid cloneIsolation request w w') :
    Leaves isolatedDeviceUuid cloneIsolation request w w' := by
  cases request with
  | createStrategy dto =>
    exact leaves_stays h (fun _ ↦ maintains_ignore (createStrategy_stays dto)) rfl rfl rfl hw
  | updateStrategy guid dto =>
    exact leaves_stays h (fun _ ↦ maintains_ignore (updateStrategy_stays guid dto)) rfl rfl rfl hw
  | deleteStrategy guid => exact leaves_stays h (fun _ ↦ deleteStrategy_stays guid) rfl rfl rfl hw
  | assignStrategy strategyGuid type targets =>
    exact leaves_stays h (fun _ ↦ maintains_ignore (assignStrategy_stays strategyGuid type targets))
      rfl rfl rfl hw
  | unassignStrategy strategyGuid type targets =>
    exact leaves_stays h
      (fun _ ↦ maintains_ignore (unassignStrategy_stays strategyGuid type targets)) rfl rfl rfl hw
  | findStrategyForDevice deviceUuid =>
    exact leaves_stays h (fun _ ↦ answerLookup_stays deviceUuid) rfl rfl rfl hw
  | createDeviceGroup name note =>
    exact leaves_stays h (fun _ ↦ createDeviceGroup_stays name note) rfl rfl rfl hw
  | updateDeviceGroup guid name note =>
    exact leaves_stays h (fun _ ↦ updateDeviceGroup_stays guid name note) rfl rfl rfl hw
  | deleteDeviceGroup guid =>
    exact leaves_stays h (fun _ ↦ deleteDeviceGroup_stays guid) rfl rfl rfl hw
  | addDevicesToGroup guid deviceIds =>
    exact leaves_stays h (fun _ ↦ addDevicesToGroup_stays guid deviceIds) rfl rfl rfl hw
  | removeDevicesFromGroup guid deviceIds =>
    exact leaves_stays h (fun _ ↦ removeDevicesFromGroup_stays guid deviceIds) rfl rfl rfl hw
  | updateDevice guid dto => exact leaves_stays h (fun _ ↦ updateDevice_stays guid dto) rfl rfl rfl hw
  | deleteDevice guid => exact leaves_stays h (fun _ ↦ deleteDevice_stays guid) rfl rfl rfl hw
  | restoreTombstone uuid => exact leaves_stays h (fun _ ↦ restoreTombstone_stays uuid) rfl rfl rfl hw
  | createUser username => exact leaves_stays h (fun _ ↦ stays_quiet rfl) rfl rfl rfl hw
  | updateUser guid name =>
    exact leaves_stays h (fun _ ↦ UserService.updateUser_stays guid name) rfl rfl rfl hw
  | deleteUser guid refusal => exact leaves_deleteUser h hw
  | flush => exact leaves_stays h (fun _ ↦ stays_ask rfl) rfl rfl rfl hw
  | bindDevice userGuid deviceId deviceUuid =>
    obtain ⟨i, x, hc⟩ := hw
    refine leaves_writes h (fun uuid data hl ↦ ?_) rfl rfl
      (AuthDeviceService.createOrUpdateDevice_yields _ _ userGuid deviceId deviceUuid x w' hc)
    rw [relinked] at hl
    split at hl
    · cases hl
    · obtain ⟨_, -, hl⟩ := Option.bind_eq_some_iff.mp hl
      obtain ⟨_, -, hl⟩ := Option.map_eq_some_iff.mp hl
      cases hl
      rfl
  | unbindDevice userGuid deviceUuid deviceId =>
    obtain ⟨i, x, hc⟩ := hw
    refine leaves_writes h (fun uuid data hl ↦ ?_) rfl rfl
      (AuthDeviceService.unbindDevice_yields _ _ userGuid deviceUuid deviceId x w' hc)
    rw [relinked] at hl
    split at hl
    · cases hl
    · obtain ⟨_, -, hl⟩ := Option.map_eq_some_iff.mp hl
      cases hl
      rfl
  | sysinfo dto =>
    obtain ⟨i, x, hc⟩ := hw
    refine leaves_writes h (fun uuid data hl ↦ ?_) rfl rfl ?_
    · rw [relinked] at hl
      split at hl
      · cases hl
      · obtain ⟨_, -, hl⟩ := Option.bind_eq_some_iff.mp hl
        obtain ⟨_, -, hl⟩ := Option.bind_eq_some_iff.mp hl
        obtain ⟨_, -, hl⟩ := Option.map_eq_some_iff.mp hl
        cases hl
        rfl
    · exact ignore_yields (SysinfoService.createSysinfo_yields _ _ dto) x w' hc
  | heartbeat data =>
    obtain ⟨i, x, hc⟩ := hw
    have hy := (HeartbeatService.handleHeartbeat_yields (i := i) (w := w) isolatedDeviceUuid
      cloneIsolation data).mono fun _ _ hx ↦ hx.imp fun _ ↦ And.right
    obtain ⟨result, hr⟩ := ignore_yields hy x w' hc
    exact leaves_heartbeat h hr

/-- Requests one after the other, each of them prudent where it is served. -/
abbrev PrudentRun (isolatedDeviceUuid : String → String → String) (cloneIsolation : Bool) :
    World → World → Prop :=
  ReflTransGen fun w w' ↦ ∃ request, Prudent isolatedDeviceUuid cloneIsolation request w ∧
    Served isolatedDeviceUuid cloneIsolation request w w'

theorem run_coherent (hb : Blank w₀) (hr : PrudentRun isolatedDeviceUuid cloneIsolation w₀ w) :
    CoherentOff ∅ w := by
  induction hr with
  | refl => exact .blank hb.referential rfl hb.objects hb.devices
  | tail _ hstep ih =>
    obtain ⟨request, hprudent, hw⟩ := hstep
    obtain ⟨⟨S, hS⟩, hiff⟩ := served_leaves ih hw
    exact coherentOff_of_coherent hS (hiff.mpr hprudent)

theorem cache_coherent (hb : Blank w₀) (hr : PrudentRun isolatedDeviceUuid cloneIsolation w₀ w) :
    Coherent w ∧ ∀ request w', Served isolatedDeviceUuid cloneIsolation request w w' →
      (Coherent w' ↔ Prudent isolatedDeviceUuid cloneIsolation request w) := by
  have h := run_coherent hb hr
  exact ⟨h.coherent, fun request w' hw ↦ (served_leaves h hw).2⟩

/-- The world after a request that met with no failure. -/
def afterRequest (isolatedDeviceUuid : String → String → String) (cloneIsolation : Bool) (w : World)
    (request : Request) : Option World :=
  (alone.complete 0 (List.replicate 20 ⟨0, "", .ok ()⟩)
    ((serve isolatedDeviceUuid cloneIsolation request).start ()) w).map Prod.snd

theorem served_afterRequest
    (h : afterRequest isolatedDeviceUuid cloneIsolation w request = some w') :
    Served isolatedDeviceUuid cloneIsolation request w w' := by
  obtain ⟨⟨⟨x, u⟩, w₁⟩, hc, rfl⟩ := Option.map_eq_some_iff.mp h
  exact ⟨0, x, Serves.of_complete hc⟩

/-- The same, where such a request goes through. -/
def next (w : World) (request : Request) : World :=
  (afterRequest (fun uuid _ ↦ uuid) false w request).getD w

theorem served_next
    (h : (afterRequest (fun uuid _ ↦ uuid) false w request).isSome = true) :
    Served (fun uuid _ ↦ uuid) false request w (next w request) := by
  obtain ⟨w', hw⟩ := Option.isSome_iff_exists.mp h
  rw [next, hw]
  exact served_afterRequest hw

/-- A device without a user, and a user with a strategy. -/
def sampleWorld : World where
  db := {
    peers := [⟨"d", "1", none, none, none, none, 0, 0⟩]
    users := [⟨"u", "user", some "s"⟩]
    deviceGroups := []
    strategies := [⟨"s", "strategy", "", some [("key", "value")], 5⟩]
    tombstones := []
    sysinfos := [] }
  peerBuffer := .empty
  strategyObjectCache := .empty
  deviceStrategyCache := .empty
  history := []

theorem sample_blank : Blank sampleWorld := by
  refine ⟨fun guid hg ↦ .inr ?_, rfl, rfl⟩
  have hs : guid = "s" := by simpa [Database.references, sampleWorld] using hg
  subst hs
  exact ⟨_, rfl⟩

/-- The device is looked up once. -/
def sampleLookup : World := next sampleWorld (.findStrategyForDevice "d")

/-- And then its user logs in. -/
def sampleLogin : World := next sampleLookup (.bindDevice "u" (some "1") (some "d"))

def samplePeer : Peer := ⟨"d", "1", some "u", none, none, none, 0, 0⟩

/-- A request that finds no entry in the cache where it would need one to be prudent. -/
def prudently (w : World) (request : Request) : Bool :=
  ((relinked (fun uuid _ ↦ uuid) false w.db request).all fun link ↦
    (w.deviceStrategyCache.get? link.1).isNone) &&
  ((registered (fun uuid _ ↦ uuid) false w.db request).all fun uuid ↦
    (w.deviceStrategyCache.get? uuid).isNone) &&
  (removed request).all fun _ ↦ w.db.peers.all fun peer ↦
    decide (w.db.resolve { peer with userGuid := none } = w.db.resolve peer)

theorem prudent_of_prudently (h : prudently w request = true) :
    Prudent (fun uuid _ ↦ uuid) false request w := by
  rw [prudently, Bool.and_eq_true, Bool.and_eq_true] at h
  obtain ⟨⟨hrelinked, hregistered⟩, horphaned⟩ := h
  refine ⟨fun uuid data peer hl _ hc ↦ ?_, fun uuid guid hr hc ↦ ?_, fun guid peer hd hp _ _ ↦ ?_⟩
  · rw [hl] at hrelinked
    simp only [Option.all_some, Option.isNone_iff_eq_none] at hrelinked
    rw [hrelinked] at hc
    cases hc
  · rw [hr] at hregistered
    simp only [Option.all_some, Option.isNone_iff_eq_none] at hregistered
    rw [hregistered] at hc
    cases hc
  · rw [hd, Option.all_some] at horphaned
    exact of_decide_eq_true (List.all_eq_true.mp horphaned peer (List.mem_of_find?_eq_some hp))

def allPrudently : List Request → World → Bool
  | [], _ => true
  | request :: requests, w =>
    (afterRequest (fun uuid _ ↦ uuid) false w request).isSome && prudently w request &&
      allPrudently requests (next w request)

theorem prudentRun_of_all {requests : List Request} (h : allPrudently requests w = true) :
    PrudentRun (fun uuid _ ↦ uuid) false w (requests.foldl next w) := by
  induction requests generalizing w with
  | nil => exact .refl
  | cons request requests ih =>
    rw [allPrudently, Bool.and_eq_true, Bool.and_eq_true] at h
    obtain ⟨⟨hserved, hprudent⟩, hrest⟩ := h
    exact .head ⟨request, prudent_of_prudently hprudent, served_next hserved⟩ (ih hrest)

/-- The user logs in from the device, the strategy moves from the user to the device,
a second device appears, and the user is deleted. -/
def sampleRequests : List Request :=
  [.bindDevice "u" (some "1") (some "d"), .findStrategyForDevice "d",
    .unassignStrategy "s" .user ["u"], .assignStrategy "s" .device ["d"],
    .findStrategyForDevice "d", .heartbeat ⟨"2", "e", 0, 0⟩, .deleteUser "u" none]

def sampleServed : World := sampleRequests.foldl next sampleWorld

theorem sample_coherent : Coherent sampleServed ∧
    (∀ request w', Served (fun uuid _ ↦ uuid) false request sampleServed w' →
      (Coherent w' ↔ Prudent (fun uuid _ ↦ uuid) false request sampleServed)) ∧
    sampleServed.deviceStrategyCache.get? "d" = some (some "s") ∧ sampleServed.db.users = [] := by
  have hrun : PrudentRun (fun uuid _ ↦ uuid) false sampleWorld sampleServed :=
    prudentRun_of_all (by decide +kernel)
  have hcoherent := cache_coherent sample_blank hrun
  exact ⟨hcoherent.1, hcoherent.2, by decide +kernel, by decide +kernel⟩

/-- The user of a device that has an entry in the cache changes, and so does what
it resolves to. -/
theorem cache_stale : ¬ ∀ (isolatedDeviceUuid : String → String → String) (cloneIsolation : Bool)
    (w₀ w : World), Blank w₀ →
      ReflTransGen (fun w w' ↦ ∃ request,
        Served isolatedDeviceUuid cloneIsolation request w w') w₀ w → Coherent w := by
  intro hclaim
  have hrun : ReflTransGen (fun w w' ↦ ∃ request, Served (fun uuid _ ↦ uuid) false request w w')
      sampleWorld sampleLogin :=
    .tail (.single ⟨_, served_next (by decide +kernel)⟩) ⟨_, served_next (by decide +kernel)⟩
  have hc := hclaim _ false sampleWorld sampleLogin sample_blank hrun
  have hp : sampleLogin.db.peer samplePeer.uuid = some samplePeer := by decide +kernel
  have hne : sampleLogin.lookup samplePeer ≠ sampleLogin.db.resolve samplePeer := by
    decide +kernel
  exact hne (Except.ok.inj (hc 0 samplePeer _ _ _ _ hp
    (findStrategyForPeer_evaluates samplePeer).completes
    (resolveStrategyForPeer_evaluates samplePeer).completes))

end Served

end RustdeskConsole.Strategies
