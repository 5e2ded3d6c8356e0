import RustdeskConsole.Effects.Serial
import RustdeskConsole.Strategies.Caches

namespace RustdeskConsole.Strategies

open Collections Effects Handler
open Devices (Failure truthy HeartbeatDto SysinfoDto)

/-- One request at a time. -/
def alone : Machine ℕ Command Reply Choice World where
  exec := exec
  admits _ _ _ := False

variable {α β : Type} {i : ℕ} {w w' : World} {S : Set String} {peer : Peer} {guid : String}

theorem ask_evaluates {c : Command} {r : Reply c} (h : ∀ o, exec i c o w = (w', some r)) :
    Evaluates alone i (ask c) w (.ok r) w' := .invoke ⟨0, "", .ok ()⟩ h

section Lookup

open StrategyService

theorem findStrategyOf_evaluates (reference : Option String) :
    Evaluates alone i (findStrategyOf reference) w (.ok (w.db.strategyOf reference)) w := by
  rw [findStrategyOf, Database.strategyOf]
  cases truthy reference with
  | none => exact .pure
  | some guid => exact ask_evaluates fun _ ↦ rfl

theorem resolveUserStrategy_evaluates (userGuid : Option String) :
    Evaluates alone i (resolveUserStrategy userGuid) w
      (.ok ((truthy userGuid).bind w.db.userStrategy)) w := by
  rw [resolveUserStrategy]
  cases truthy userGuid with
  | none => exact .pure
  | some guid =>
    refine (ask_evaluates fun _ ↦ rfl).bind ?_
    have h := findStrategyOf_evaluates (i := i) (w := w) ((w.db.user guid).bind (·.strategyGuid))
    rw [Option.bind_some, Database.userStrategy]
    cases hu : w.db.user guid with
    | none =>
      rw [hu] at h
      exact h
    | some user =>
      rw [hu] at h
      exact h

theorem resolveGroupStrategy_evaluates (deviceGroupGuid : Option String) :
    Evaluates alone i (resolveGroupStrategy deviceGroupGuid) w
      (.ok ((truthy deviceGroupGuid).bind w.db.groupStrategy)) w := by
  rw [resolveGroupStrategy]
  cases truthy deviceGroupGuid with
  | none => exact .pure
  | some guid =>
    refine (ask_evaluates fun _ ↦ rfl).bind ?_
    have h := findStrategyOf_evaluates (i := i) (w := w)
      ((w.db.deviceGroup guid).bind (·.strategyGuid))
    rw [Option.bind_some, Database.groupStrategy]
    cases hg : w.db.deviceGroup guid with
    | none =>
      rw [hg] at h
      exact h
    | some group =>
      rw [hg] at h
      exact h

theorem orElse_evaluates {result value : Option Strategy} {next : Handler (Option Strategy)}
    (hn : Evaluates alone i next w (.ok value) w) :
    Evaluates alone i (orElse result next) w (.ok (result.or value)) w := by
  cases result with
  | none => exact hn
  | some strategy => exact .pure

/-- The uncached resolution reads the tables and leaves them. -/
theorem resolveStrategyForPeer_evaluates (peer : Peer) :
    Evaluates alone i (resolveStrategyForPeer peer) w (.ok (w.db.resolve peer)) w := by
  refine (findStrategyOf_evaluates peer.strategyGuid).bind ?_
  rw [Database.resolve, Option.or_assoc]
  refine orElse_evaluates ((resolveUserStrategy_evaluates peer.userGuid).bind ?_)
  exact orElse_evaluates (resolveGroupStrategy_evaluates peer.deviceGroupGuid)

theorem findStrategyForPeer_evaluates (peer : Peer) :
    Evaluates alone i (findStrategyForPeer peer) w (.ok (w.lookup peer))
      (w.afterLookup i peer) := by
  refine (ask_evaluates fun _ ↦ rfl).bind ?_
  rw [World.lookup, World.afterLookup]
  cases w.cachedStrategy peer.uuid with
  | some result => exact .pure
  | none =>
    refine (resolveStrategyForPeer_evaluates peer).bind ?_
    exact (ask_evaluates fun _ ↦ rfl).bind .pure

end Lookup

/-- A handler started with coherent caches leaves them coherent, however it ends. -/
abbrev Stays (i : ℕ) (p : Handler α) : Prop := Maintains alone i (CoherentOff ∅) p

/-- The commands that no strategy depends on, or that only add what nothing
refers to. -/
def Command.quiet : Command → Bool
  | .saveStrategy _ | .removeStrategy _ | .removeUser .. | .removeDeviceGroup _ | .updatePeer ..
  | .updateDevice .. | .insertPeer .. | .assign .. | .unassign .. | .cacheStrategy ..
  | .cacheObject _ | .forgetStrategy _ | .invalidateDeviceStrategyCache _ => false
  | _ => true

theorem exec_quiet {c : Command} (hq : c.quiet = true) {o : Choice} {r : Reply c}
    (h : CoherentOff S w) (he : exec i c o w = (w', some r)) : CoherentOff S w' := by
  cases c with
  | saveStrategy => cases hq
  | removeStrategy => cases hq
  | removeUser => cases hq
  | removeDeviceGroup => cases hq
  | updatePeer => cases hq
  | updateDevice => cases hq
  | insertPeer => cases hq
  | assign => cases hq
  | unassign => cases hq
  | cacheStrategy => cases hq
  | cacheObject => cases hq
  | forgetStrategy => cases hq
  | invalidateDeviceStrategyCache => cases hq
  | insertStrategy draft =>
    rw [exec, World.insertStrategy] at he
    dsimp only at he
    split at he
    · cases he
    · next hn =>
      split at he
      · cases he
        exact h
      · cases he
        refine h.write_quiet (Database.keeps_insertStrategy h.referential ?_)
        simpa using (not_or.mp hn).2
  | insertUser username =>
    rw [exec, World.insertUser] at he
    split at he
    · cases he
    · next hn =>
      split at he
      · cases he
        exact h
      · cases he
        refine h.write_quiet (Database.Same.keeps_of_peers ?_ h.referential rfl)
        exact Database.same_insertUser (by simpa using hn) rfl
  | saveUser saved =>
    rw [exec, World.saveUser] at he
    split at he
    · cases he
      exact h
    · cases he
      refine h.write_quiet (Database.Same.keeps_of_peers ?_ h.referential rfl)
      refine Database.same_mapUsers (fun row ↦ ?_) fun row ↦ ?_
      · split <;> rfl
      · split <;> rfl
  | insertDeviceGroup name note =>
    rw [exec, World.insertDeviceGroup] at he
    split at he
    · cases he
    · next hn =>
      split at he
      · cases he
        exact h
      · cases he
        refine h.write_quiet (Database.Same.keeps_of_peers ?_ h.referential rfl)
        exact Database.same_insertDeviceGroup (by simpa using hn) rfl
  | saveDeviceGroup saved =>
    rw [exec, World.saveDeviceGroup] at he
    split at he
    · cases he
      exact h
    · cases he
      refine h.write_quiet (Database.Same.keeps_of_peers ?_ h.referential rfl)
      refine Database.same_mapDeviceGroups (fun row ↦ ?_) fun row ↦ ?_
      · split <;> rfl
      · split <;> rfl
  | deletePeer uuid =>
    have he := map_some_inj he
    dsimp only [World.deletePeer] at he
    split at he
    · cases he
      exact h
    · split at he
      · cases he
        exact h
      · cases he
        exact h.write_quiet (Database.keeps_deletePeer h.referential _)
  | flush =>
    cases he
    exact h.flush
  | removeTombstone uuid =>
    cases he
    refine h.write_quiet (Database.Same.keeps_of_peers ?_ h.referential rfl)
    exact Database.same_of_eq rfl rfl rfl
  | saveSysinfo sysinfo =>
    cases he
    refine h.write_quiet (Database.Same.keeps_of_peers ?_ h.referential rfl)
    exact Database.same_of_eq rfl rfl rfl
  | findPeer uuid =>
    cases he
    exact h.of_eq rfl rfl rfl
  | bufferPeerUpdate uuid data =>
    cases he
    exact h.of_eq rfl rfl rfl
  | answer result =>
    cases he
    exact h.of_eq rfl rfl rfl
  | authorize => cases he; exact h
  | findStrategy => cases he; exact h
  | findStrategyByName => cases he; exact h
  | findUser => cases he; exact h
  | findUserByName => cases he; exact h
  | findDeviceGroup => cases he; exact h
  | findDeviceGroupByName => cases he; exact h
  | findPeers => cases he; exact h
  | findTombstone => cases he; exact h
  | liftBan => cases he; exact h
  | findSysinfo => cases he; exact h
  | cachedStrategy => cases he; exact h

section Rules

variable {P : World → Prop} {p : Handler α} {f : α → Handler β}

theorem stays_quiet {c : Command} {g : Reply c → Except Failure α} (hq : c.quiet = true) :
    Stays i (invoke c g) := .invoke fun _ _ _ _ h he ↦ exec_quiet hq h he

theorem stays_ask {c : Command} (hq : c.quiet = true) : Stays i (ask c) := stays_quiet hq

theorem maintains_assert (condition : Bool) (failure : Failure) :
    Maintains alone i P (assert condition failure) := by
  cases condition with
  | false => exact .throw failure
  | true => exact .pure ()

theorem maintains_require (value : Option α) (failure : Failure) :
    Maintains alone i P (require value failure) := by
  cases value with
  | none => exact .throw failure
  | some a => exact .pure a

theorem maintains_forEach {g : α → Handler Unit} (hg : ∀ a, Maintains alone i P (g a))
    (as : List α) : Maintains alone i P (forEach g as) := by
  induction as with
  | nil => exact .pure ()
  | cons a as ih => exact (hg a).bind fun _ ↦ ih

theorem require_yields {value : Option α} {failure : Failure} {Q : Except Failure β → World → Prop}
    (hf : ∀ a, value = some a → Yields alone i (f a) w Q)
    (hn : value = none → Q (.error failure) w) :
    Yields alone i (require value failure >>= f) w Q := by
  cases value with
  | none => exact Evaluates.throw.throw_yields (hn rfl)
  | some a => exact Evaluates.pure.bind_yields (hf a rfl)

theorem ignore_yields (hp : Yields alone i p w fun _ w' ↦ P w') :
    Yields alone i (ignore p) w fun _ w' ↦ P w' :=
  hp.bind (fun _ _ h ↦ .pure h) fun _ _ h ↦ h

theorem maintains_ignore (hp : Maintains alone i P p) : Maintains alone i P (ignore p) :=
  fun w h ↦ ignore_yields (hp w h)

end Rules

namespace StrategyService

theorem createStrategy_stays (dto : CreateStrategyDto) : Stays i (createStrategy dto) := by
  refine Maintains.bind (stays_ask rfl) fun existing ↦ ?_
  refine Maintains.bind (maintains_assert _ _) fun _ ↦ ?_
  exact stays_quiet rfl

/-- The part of a handler that only reads. -/
theorem assertName_yields (guid : String) (name : Option String) :
    Yields alone i (assertName guid name) w fun _ w' ↦ w' = w := by
  cases name with
  | none => exact .pure rfl
  | some name =>
    refine (ask_evaluates fun _ ↦ rfl).bind_yields ?_
    rw [assert]
    split
    · exact .pure rfl
    · exact .throw rfl

/-- What a save does: one row is replaced, or nothing happens. -/
theorem saveStrategy_cases {saved : Strategy} {now : ℕ} {x : Except Failure Strategy}
    (h : w.saveStrategy saved now = (w', x)) :
    (∃ failure, x = .error failure ∧ w' = w) ∨
      ∃ strategy, x = .ok strategy ∧ strategy.guid = saved.guid ∧
        w' = { w with db := w.db.replaceStrategy strategy } := by
  rw [World.saveStrategy] at h
  dsimp only at h
  split at h
  · cases h
    exact .inl ⟨_, rfl, rfl⟩
  · cases h
    exact .inr ⟨_, rfl, rfl, rfl⟩

theorem updateStrategy_stays (guid : String) (dto : UpdateStrategyDto) :
    Stays i (updateStrategy guid dto) := by
  intro w h
  refine (ask_evaluates fun _ ↦ rfl).bind_yields (require_yields (fun row hs ↦ ?_) fun _ ↦ h)
  refine (assertName_yields guid dto.name).bind (fun _ w₁ hw ↦ ?_) fun _ w₁ hw ↦ hw ▸ h
  subst hw
  have hguid := Database.strategy_guid hs
  refine Yields.bind (Yields.invoke fun o w₂ x he ↦ saveStrategy_cases (map_some_inj he)) ?_ ?_
  · intro saved w₂ hcases
    obtain ⟨_, hx, -⟩ | ⟨strategy, hx, hg, rfl⟩ := hcases
    · cases hx
    · cases hx
      refine (ask_evaluates fun _ ↦ rfl).bind_yields (.pure ?_)
      refine h.replaceStrategy ?_
      rw [hg, hguid, hs]
      rfl
  · intro failure w₂ hcases
    obtain ⟨_, -, rfl⟩ | ⟨_, hx, -⟩ := hcases
    · exact h
    · cases hx

theorem deleteStrategy_stays (guid : String) : Stays i (deleteStrategy guid) := by
  intro w h
  refine (ask_evaluates fun _ ↦ rfl).bind_yields (require_yields (fun row _ ↦ ?_) fun _ ↦ h)
  refine (ask_evaluates fun _ ↦ rfl).bind_yields ?_
  exact (ask_evaluates fun _ ↦ rfl).yields.mono fun _ _ hx ↦ hx.2 ▸ h.removeStrategy

theorem setStrategies_coherent (h : CoherentOff S w) {type : TargetType}
    {selected : String × Option String → Bool} {value : Option String}
    (hv : ∀ guid, value = some guid → ∃ strategy, w.db.strategy guid = some strategy) :
    CoherentOff Set.univ (w.commit i (w.db.setStrategies type selected value)) :=
  ((h.write (Database.keeps_setStrategies h.referential hv)).mono (Set.subset_univ _)).of_eq
    rfl rfl rfl

/-- A transaction that clears the whole cache once it is committed. -/
theorem transaction_stays {c : Command} {g : Reply c → Except Failure α}
    (hc : ∀ w o w' r, CoherentOff ∅ w → exec i c o w = (w', some r) →
      CoherentOff Set.univ w' ∧ ∀ e, g r = .error e → CoherentOff ∅ w') :
    Stays i (do
      let a ← invoke c g
      ask (.invalidateDeviceStrategyCache none)
      pure a) := by
  intro w h
  refine Yields.bind (P := fun x w' ↦ CoherentOff Set.univ w' ∧ ∀ e, x = .error e →
    CoherentOff ∅ w') (.invoke fun o w₁ r he ↦ hc w o w₁ r h he) (fun a w₁ hw ↦ ?_) ?_
  · exact (ask_evaluates fun _ ↦ rfl).bind_yields (.pure hw.1.clear)
  · intro e w₁ hw
    exact hw.2 e rfl

theorem assignStrategy_stays (strategyGuid : String) (type : TargetType) (targets : List String) :
    Stays i (assignStrategy strategyGuid type targets) := by
  refine transaction_stays fun w o w' r h he ↦ ?_
  have he := map_some_inj he
  dsimp only [World.assign] at he
  split at he
  · cases he
    exact ⟨h.mono (Set.empty_subset _), fun _ _ ↦ h⟩
  · split at he
    · cases he
      exact ⟨h.mono (Set.empty_subset _), fun _ _ ↦ h⟩
    · next strategy hs =>
      cases he
      refine ⟨setStrategies_coherent h fun guid hg ↦ ?_, fun _ ↦ (by simp)⟩
      cases hg
      exact ⟨strategy, hs⟩

theorem unassignStrategy_stays (strategyGuid : String) (type : TargetType)
    (targets : List String) : Stays i (unassignStrategy strategyGuid type targets) := by
  refine transaction_stays fun w o w' r h he ↦ ?_
  have he := map_some_inj he
  dsimp only [World.unassign] at he
  split at he
  · cases he
    exact ⟨h.mono (Set.empty_subset _), fun _ _ ↦ h⟩
  · split at he
    · cases he
      exact ⟨h.mono (Set.empty_subset _), fun _ _ ↦ h⟩
    · cases he
      exact ⟨setStrategies_coherent h fun _ ↦ (by simp), fun _ ↦ (by simp)⟩

theorem findStrategyForPeer_stays (h : CoherentOff S w) (hp : w.db.peer peer.uuid = some peer) :
    Yields alone i (findStrategyForPeer peer) w fun _ w' ↦ CoherentOff S w' :=
  (findStrategyForPeer_evaluates peer).yields.mono fun _ _ hx ↦ hx.2 ▸ h.afterLookup hp

theorem answerLookup_stays (deviceUuid : String) : Stays i (answerLookup deviceUuid) := by
  intro w h
  refine Yields.bind (P := fun _ w' ↦ CoherentOff ∅ w') ?_ (fun result w₁ h₁ ↦ ?_) fun _ _ h ↦ h
  · refine (ask_evaluates fun _ ↦ rfl).bind_yields ?_
    have h₁ : CoherentOff ∅ (w.note i (.loaded deviceUuid)) := h.of_eq rfl rfl rfl
    cases hp : w.db.peer deviceUuid with
    | none => exact .pure h₁
    | some peer =>
      refine findStrategyForPeer_stays h₁ ?_
      rw [Database.peer_uuid hp]
      exact hp
  · exact stays_ask rfl w₁ h₁

end StrategyService

namespace DeviceGroupService

theorem assertName_stays (guid : String) (name : Option String) :
    Stays i (assertName guid name) := by
  cases name with
  | none => exact .pure ()
  | some name => exact Maintains.bind (stays_ask rfl) fun existing ↦ maintains_assert _ _

theorem createDeviceGroup_stays (name : String) (note : Option String) :
    Stays i (createDeviceGroup name note) := by
  refine Maintains.bind (stays_quiet rfl) fun _ ↦ ?_
  refine Maintains.bind (stays_ask rfl) fun existing ↦ ?_
  exact Maintains.bind (maintains_assert _ _) fun _ ↦ stays_quiet rfl

theorem findGroup_stays (guid : String) : Stays i (findGroup guid) :=
  .bind (stays_ask rfl) fun _ ↦ maintains_require _ _

theorem updateDeviceGroup_stays (guid : String) (name note : Option String) :
    Stays i (updateDeviceGroup guid name note) := by
  refine Maintains.bind (stays_quiet rfl) fun _ ↦ ?_
  refine Maintains.bind (findGroup_stays guid) fun deviceGroup ↦ ?_
  exact Maintains.bind (assertName_stays guid name) fun _ ↦ stays_quiet rfl

/-- One device after the other is dropped from the cache. -/
theorem invalidate_yields (uuids : List String) (h : CoherentOff S w)
    (hS : ∀ uuid ∈ S, uuid ∈ uuids) :
    Yields alone i
      (forEach (fun uuid ↦ ask (.invalidateDeviceStrategyCache (some uuid))) uuids) w
      fun _ w' ↦ CoherentOff ∅ w' := by
  induction uuids generalizing w S with
  | nil => exact .pure (h.mono fun uuid hu ↦ absurd (hS uuid hu) List.not_mem_nil)
  | cons uuid uuids ih =>
    refine (ask_evaluates fun _ ↦ rfl).bind_yields (ih h.invalidate fun uuid' hu ↦ ?_)
    exact (List.mem_cons.mp (hS uuid' hu.1)).resolve_left hu.2

theorem deleteDeviceGroup_stays (guid : String) : Stays i (deleteDeviceGroup guid) := by
  refine Maintains.bind (stays_quiet rfl) fun _ w h ↦ ?_
  refine Yields.bind (P := fun x w' ↦ (∀ uuids, x = .ok uuids →
      ∃ S, CoherentOff S w' ∧ ∀ uuid ∈ S, uuid ∈ uuids) ∧ ∀ e, x = .error e → CoherentOff ∅ w')
    (.invoke fun o w₁ r he ↦ ?_) ?_ ?_
  · have he := map_some_inj he
    split at he
    · cases he
      exact ⟨fun _ ↦ (by simp), fun _ _ ↦ h⟩
    · split at he
      · cases he
        exact ⟨fun _ ↦ (by simp), fun _ _ ↦ h⟩
      · cases he
        refine ⟨fun uuids hx ↦ ?_, fun _ ↦ (by simp)⟩
        cases hx
        refine ⟨_, h.write (Database.keeps_removeDeviceGroup h.referential), fun uuid hu ↦ ?_⟩
        obtain hu | ⟨row, hm, rfl, hg⟩ := hu
        · cases hu
        · exact List.mem_map.mpr ⟨row, List.mem_filter.mpr ⟨hm, by simpa using hg⟩, rfl⟩
  · intro uuids w₁ hw
    obtain ⟨S, hS, hm⟩ := hw.1 uuids rfl
    exact invalidate_yields uuids hS hm
  · intro e w₁ hw
    exact hw.2 e rfl

theorem moveDevice_stays (deviceGroupGuid : Option String) (peer : Peer) :
    Stays i (moveDevice deviceGroupGuid peer) := by
  intro w h
  refine (ask_evaluates fun _ ↦ rfl).bind_yields ?_
  let data : PeerUpdate := ⟨none, some deviceGroupGuid, none, none⟩
  have hk : Database.Keeps {peer.uuid} w.db (w.db.updatePeer peer.uuid data.apply) :=
    Database.keeps_updatePeer h.referential fun _ ↦ nofun
  refine (ask_evaluates fun _ ↦ rfl).yields.mono fun _ _ hx ↦ hx.2 ▸ ?_
  exact (h.write hk).invalidate.mono fun uuid hu ↦ hu.2 (hu.1.resolve_left id)

theorem addDevicesToGroup_stays (guid : String) (deviceIds : List String) :
    Stays i (addDevicesToGroup guid deviceIds) := by
  refine Maintains.bind (stays_quiet rfl) fun _ ↦ ?_
  refine Maintains.bind (findGroup_stays guid) fun deviceGroup ↦ ?_
  refine Maintains.bind (stays_ask rfl) fun peers ↦ ?_
  refine Maintains.bind (maintains_assert _ _) fun _ ↦ ?_
  exact maintains_forEach (moveDevice_stays (some guid)) peers

theorem removeDevicesFromGroup_stays (guid : String) (deviceIds : List String) :
    Stays i (removeDevicesFromGroup guid deviceIds) := by
  refine Maintains.bind (stays_quiet rfl) fun _ ↦ ?_
  refine Maintains.bind (findGroup_stays guid) fun deviceGroup ↦ ?_
  refine Maintains.bind (stays_ask rfl) fun peers ↦ ?_
  refine Maintains.bind (maintains_assert _ _) fun _ ↦ ?_
  exact maintains_forEach (moveDevice_stays none) peers

/-- A name that leads to a row, or none: the tables stay. -/
theorem resolveName_yields {name : Option (Option String)} {find : String → Handler (Option α)}
    {key : α → String} {failure : Failure} {rows : String → Option α}
    (hf : ∀ name, Evaluates alone i (find name) w (.ok (rows name)) w) :
    Yields alone i (resolveName name find key failure) w fun x w' ↦ w' = w ∧
      ∀ guid, x = .ok (some (some guid)) → ∃ name row, rows name = some row ∧ key row = guid := by
  rw [resolveName.eq_def]
  split
  · exact .pure ⟨rfl, fun _ ↦ nofun⟩
  · exact .pure ⟨rfl, fun _ ↦ nofun⟩
  · next name =>
    refine (hf name).bind_yields (require_yields (fun row hr ↦ ?_) fun _ ↦ ⟨rfl, fun _ ↦ nofun⟩)
    refine .pure ⟨rfl, fun guid hx ↦ ?_⟩
    cases hx
    exact ⟨name, row, hr, rfl⟩

theorem writeDevice_yields {data : PeerUpdate} (h : CoherentOff ∅ w)
    (hd : ∀ guid, data.strategyGuid = some (some guid) →
      ∃ strategy, w.db.strategy guid = some strategy) :
    Yields alone i (writeDevice guid data) w fun _ w' ↦ CoherentOff ∅ w' := by
  rw [writeDevice]
  split
  · exact .pure h
  · refine Yields.bind (P := fun x w' ↦ CoherentOff {guid} w' ∧ ∀ e, x = .error e →
      CoherentOff ∅ w') (.invoke fun o w₁ r he ↦ ?_) (fun _ w₁ hw ↦ ?_) fun e w₁ hw ↦ hw.2 e rfl
    · have he := map_some_inj he
      split at he
      · cases he
        exact ⟨h.mono (Set.empty_subset _), fun _ _ ↦ h⟩
      · split at he
        · cases he
          exact ⟨h.mono (Set.empty_subset _), fun _ _ ↦ h⟩
        · cases he
          refine ⟨?_, fun _ ↦ (by simp)⟩
          exact (h.write (Database.keeps_updatePeer h.referential hd)).mono
            (Set.empty_union _).subset
    · refine (ask_evaluates fun _ ↦ rfl).yields.mono fun _ _ hx ↦ hx.2 ▸ ?_
      exact hw.1.invalidate.mono fun uuid hu ↦ hu.2 hu.1

theorem updateDevice_stays (guid : String) (dto : UpdateDeviceDto) :
    Stays i (updateDevice guid dto) := by
  refine Maintains.bind (stays_quiet rfl) fun _ w h ↦ ?_
  refine (resolveName_yields fun _ ↦ ask_evaluates fun _ ↦ rfl).bind (fun userGuid w₁ hw ↦ ?_)
    fun e w₁ hw ↦ hw.1 ▸ h
  obtain ⟨rfl, -⟩ := hw
  refine (resolveName_yields fun _ ↦ ask_evaluates fun _ ↦ rfl).bind
    (fun deviceGroupGuid w₁ hw ↦ ?_) fun e w₁ hw ↦ hw.1 ▸ h
  obtain ⟨rfl, -⟩ := hw
  refine (resolveName_yields fun _ ↦ ask_evaluates fun _ ↦ rfl).bind (fun strategyGuid w₁ hw ↦ ?_)
    fun e w₁ hw ↦ hw.1 ▸ h
  obtain ⟨rfl, hs⟩ := hw
  refine writeDevice_yields h fun guid hg ↦ ?_
  obtain ⟨name, row, hrow, rfl⟩ := hs guid (congrArg _ hg)
  exact Database.strategy_of_mem (List.mem_of_find?_eq_some hrow)

theorem deleteDevice_stays (guid : String) : Stays i (deleteDevice guid) :=
  Maintains.bind (stays_quiet rfl) fun _ ↦ stays_quiet rfl

theorem restoreTombstone_stays (uuid : String) : Stays i (restoreTombstone uuid) := by
  refine Maintains.bind (stays_quiet rfl) fun _ ↦ ?_
  refine Maintains.bind (stays_ask rfl) fun found ↦ ?_
  refine Maintains.bind (maintains_require _ _) fun _ ↦ ?_
  exact Maintains.bind (stays_quiet rfl) fun _ ↦ stays_ask rfl

end DeviceGroupService

theorem UserService.updateUser_stays (guid name : String) : Stays i (updateUser guid name) := by
  refine Maintains.bind (stays_ask rfl) fun found ↦ ?_
  refine Maintains.bind (maintains_require _ _) fun user ↦ ?_
  refine Maintains.bind (stays_quiet rfl) fun _ ↦ ?_
  refine Maintains.bind (stays_ask rfl) fun existing ↦ ?_
  exact Maintains.bind (maintains_assert _ _) fun _ ↦ stays_quiet rfl

end RustdeskConsole.Strategies
