import RustdeskConsole.Batches.Handlers

namespace RustdeskConsole.Batches

open Collections Effects Effects.History Function
open Rbac (PermissionScope)
open Devices (Failure DeviceTombstone)

variable {scopeOf : String → String → PermissionScope} {w w' : World} {call : Call} {α : Type}
  {s : Unit}

section Operations

variable {guid actorGuid strategyGuid : String} {guids : List String}

theorem updateNow_clean {cond : Where} {data : PeerUpdate}
    (hs : cond.scope = call.request.scope scopeOf)
    (hu : ∃ uuid, cond.uuids = [uuid] ∧ ∀ h, ∀ u ∈ selected call h, u = uuid) :
    Clean scopeOf call (attempt (.updateNow cond data) rfl) := by
  intro s w hb
  obtain ⟨uuid, huuids, hsel⟩ := hu
  refine .invoke fun w₁ ho _ ↦ ⟨⟨hs, hb.others ho, uuid, huuids, hsel _⟩, fun o w₂ r hx _ ↦ ?_⟩
  have hx : updateNow w₁ call cond data o.outcome = (w₂, r) := map_some_inj hx
  rcases updateNow_cases hx with ⟨rfl, failure, rfl⟩ | ⟨w₃, rfl, -, rfl⟩
  · exact hb.others ho
  · exact blank_commit

theorem assertDeviceAccess_clean {userGuid permissionCode deviceUuid : String} :
    Clean scopeOf call (assertDeviceAccess userGuid permissionCode deviceUuid) :=
  fun _ _ hb ↦ (assertDeviceAccess_spec hb).mono (fun _ _ _ h ↦ h.1) fun _ _ _ h ↦ h

theorem assertDevicesAccess_clean {userGuid permissionCode : String} {uuids : List String} :
    Clean scopeOf call (assertDevicesAccess userGuid permissionCode uuids) :=
  fun _ _ hb ↦ (assertDevicesAccess_spec hb).mono (fun _ _ _ h ↦ h.1) fun _ _ _ h ↦ h

theorem requireSuperAdmin_clean {userGuid : String} :
    Clean scopeOf call (attempt (.requireSuperAdmin userGuid) rfl) := .invoke rfl

theorem updateDevice_clean {dto : UpdateDeviceDto}
    (hc : call.request = .updateDevice guid dto actorGuid) :
    Clean scopeOf call (updateDevice guid dto actorGuid) := by
  intro s w hb
  refine .bind ((assertDeviceAccess_spec hb).mono (fun access s₁ w₁ h₁ ↦ ?_) fun _ _ _ h₁ ↦ h₁)
  obtain ⟨peer, scope⟩ := access
  obtain ⟨hb₁, rfl⟩ := h₁
  have hwrite : ∀ updateData : PeerUpdate, Clean scopeOf call (do
      let affected ← attempt (.updateNow ⟨[guid], scopeOf actorGuid "devices.edit", none⟩
        updateData) rfl
      if affected = 1 then pure ()
      else
        let _ ← assertDeviceAccess actorGuid "devices.edit" guid
        throw retry) := by
    intro updateData
    have hsel : ∀ h, ∀ u ∈ selected call h, u = guid := by
      intro h u hu
      rw [selected, hc] at hu
      exact List.mem_singleton.mp hu
    refine .bind (updateNow_clean (by rw [hc]; rfl) ⟨guid, rfl, hsel⟩) fun affected ↦ ?_
    split
    · exact .pure
    · exact .bind assertDeviceAccess_clean fun _ ↦ .throw
  have hrest : Clean scopeOf call (do
      let userGuid ← lookUp dto.userName (fun name ↦ ask (.findUser name))
        (.notFound "User does not exist")
      let deviceGroupGuid ← lookUp dto.deviceGroupName (fun name ↦ ask (.findDeviceGroup name))
        (.notFound "Device group does not exist")
      let strategyGuid ← lookUp dto.strategyName (fun name ↦ ask (.findStrategyByName name))
        (.notFound "Strategy does not exist")
      let updateData : PeerUpdate := ⟨userGuid, deviceGroupGuid, strategyGuid, dto.note, none⟩
      if updateData.isEmpty then pure ()
      else
        let affected ← attempt (.updateNow ⟨[guid], scopeOf actorGuid "devices.edit", none⟩
          updateData) rfl
        if affected = 1 then pure ()
        else
          let _ ← assertDeviceAccess actorGuid "devices.edit" guid
          throw retry) := by
    refine .bind (.lookUp fun _ ↦ .ask rfl) fun userGuid ↦ ?_
    refine .bind (.lookUp fun _ ↦ .ask rfl) fun deviceGroupGuid ↦ ?_
    refine .bind (.lookUp fun _ ↦ .ask rfl) fun strategyGuid ↦ ?_
    dsimp only
    split
    · exact .pure
    · exact hwrite _
  dsimp only
  split
  · exact Clean.bind requireSuperAdmin_clean (fun _ ↦ hrest) s₁ w₁ hb₁
  · exact hrest s₁ w₁ hb₁

theorem updateDeviceStatus_clean {status : PeerStatus}
    (hc : call.request = .updateDeviceStatus guids status actorGuid) :
    Clean scopeOf call (updateDeviceStatus guids status actorGuid) := by
  intro s w hb
  refine .bind ((assertDevicesAccess_spec hb).mono (fun access s₁ w₁ h₁ ↦ ?_)
    fun _ _ _ h₁ ↦ h₁)
  obtain ⟨existingPeers, scope⟩ := access
  obtain ⟨hb₁, rfl, hchecked, hmem⟩ := h₁
  dsimp only at hchecked hmem ⊢
  split
  · exact .pure hb₁
  · refine .bind (.tryCatch ((transaction_spec ?_).mono (fun _ s₂ w₂ hb₂ ↦ .pure hb₂)
      fun failure s₂ w₂ hb₂ ↦ ?_))
    · refine .bind ((update_spec hb₁.mine (by rw [hc]; rfl)).mono (fun affected s₂ w₂ h₂ ↦ ?_)
        fun _ _ _ h₂ ↦ h₂)
      split
      · next hn =>
        refine .pure (h₂.1.ready hn fun uuid hu ↦ ?_)
        rw [h₂.2, selected, hc] at hu
        rw [hchecked] at hu
        obtain ⟨peer, hp, rfl⟩ := List.mem_map.mp hu
        refine List.mem_filter.mpr ⟨List.mem_eraseDups.mpr (hmem peer hp), ?_⟩
        simpa using ⟨peer, hp, rfl⟩
      · exact .throw trivial
    · split
      · exact Clean.bind assertDevicesAccess_clean (fun _ ↦ .throw) s₂ w₂ hb₂
      · exact .throw hb₂

theorem entomb_spec {tombstone : DeviceTombstone} (hm : w.mine call = []) :
    (logic scopeOf).Ensures call (attempt (.entomb tombstone) rfl)
      (fun _ _ w' ↦ w'.mine call = []) (fun _ _ _ ↦ True) s w := by
  refine .invoke fun w₁ ho _ ↦ ⟨trivial, fun o w₂ r hx _ ↦ ?_⟩
  have hx : w₁.entomb call tombstone o.outcome = (w₂, r) := map_some_inj hx
  cases hr : o.outcome with
  | error failure =>
    rw [hr] at hx
    cases hx
    trivial
  | ok u =>
    rw [hr] at hx
    cases hx
    exact ho.mine.trans hm

theorem deleteDevice_clean (hc : call.request = .deleteDevice guid actorGuid) :
    Clean scopeOf call (deleteDevice guid actorGuid) := by
  intro s w hb
  refine .bind ((assertDeviceAccess_spec hb).mono (fun access s₁ w₁ h₁ ↦ ?_) fun _ _ _ h₁ ↦ h₁)
  obtain ⟨peer, scope⟩ := access
  obtain ⟨hb₁, rfl⟩ := h₁
  refine .tryCatch ((transaction_spec ?_).mono (fun _ _ _ hb₂ ↦ hb₂) fun failure s₂ w₂ hb₂ ↦ ?_)
  · refine .bind ((entomb_spec hb₁.mine).mono (fun _ s₂ w₂ hm ↦ ?_) fun _ _ _ h ↦ h)
    refine .bind ((delete_spec hm (by rw [hc]; rfl)).mono (fun affected s₃ w₃ h₃ ↦ ?_)
      fun _ _ _ h₃ ↦ h₃)
    split
    · next hn =>
      refine .pure (h₃.1.ready hn fun uuid hu ↦ ?_)
      rw [selected, hc] at hu
      exact hu
    · exact .throw trivial
  · cases failure with
    | conflict message => exact Clean.bind assertDeviceAccess_clean (fun _ ↦ .throw) s₂ w₂ hb₂
    | _ => exact .throw hb₂

theorem invoke_reads {c : Command} {g : Reply c → Except Failure α} (hc : c.reads = true) :
    (logic scopeOf).Ensures call (invoke c g) (fun _ _ _ ↦ True) (fun _ _ _ ↦ True) s w := by
  refine .invoke fun w₁ _ _ ↦ ⟨guard_reads hc, fun o w₂ r _ _ ↦ ?_⟩
  cases g r with
  | ok a => trivial
  | error failure => trivial

/-- The check may be made with writes open too. -/
theorem assertStrategyTargets_throws {userGuid : String} {uuids : List String}
    {failure : Failure} {Q : α → Unit → World → Prop} :
    (logic scopeOf).Ensures call
      (do
        let _ ← assertStrategyTargets userGuid uuids
        throw failure : Handler α) Q (fun _ _ _ ↦ True) s w := by
  refine .bind (.bind ((invoke_reads rfl).mono (fun scope s₁ w₁ _ ↦ ?_) fun _ _ _ h ↦ h))
  refine .bind ((invoke_reads rfl).mono (fun peers s₂ w₂ _ ↦ ?_) fun _ _ _ h ↦ h)
  split
  · exact .pure (.throw trivial)
  · exact .throw trivial

/-- What an assignment and its removal begin with. -/
theorem targets_spec {f : List Peer → Handler α} {targets : List String}
    {Q E : Unit → World → Prop} (hE : ∀ s w, Blank call w → E s w)
    (hf : ∀ peers s w, Blank call w → lastFound call w.history = peers →
      (logic scopeOf).Ensures call (f peers) (fun _ ↦ Q) (fun _ ↦ E) s w) (hb : Blank call w) :
    (logic scopeOf).Ensures call
      (do
        let strategy ← ask (.findStrategy strategyGuid)
        let _ ← require strategy (.notFound "Strategy not found")
        let peers ← ask (.findPeers targets)
        f peers) (fun _ ↦ Q) (fun _ ↦ E) s w := by
  have hfind : Clean scopeOf call (ask (.findStrategy strategyGuid)) := .ask rfl
  refine .bind ((hfind s w hb).mono (fun strategy s₁ w₁ h₁ ↦ ?_) fun _ _ _ h₁ ↦ hE _ _ h₁)
  refine .bind ((Clean.require s₁ w₁ h₁).mono (fun _ s₂ w₂ h₂ ↦ ?_) fun _ _ _ h₂ ↦ hE _ _ h₂)
  refine .bind ((findPeers_spec h₂).mono (fun peers s₃ w₃ h₃ ↦ ?_) fun _ _ _ h₃ ↦ hE _ _ h₃)
  exact hf peers s₃ w₃ h₃.1 h₃.2

theorem assignStrategy_clean (hc : call.request = .assignStrategy strategyGuid guids actorGuid) :
    Clean scopeOf call (assignStrategy strategyGuid guids actorGuid) := by
  intro s w hb
  refine transaction_spec ?_
  refine .bind ((assertStrategyTargets_spec hb).mono (fun scope s₁ w₁ h₁ ↦ ?_)
    fun _ _ _ _ ↦ trivial)
  obtain ⟨hb₁, rfl⟩ := h₁
  refine targets_spec (fun _ _ _ ↦ trivial) (fun peers s₂ w₂ hb₂ hfound ↦ ?_) hb₁
  dsimp only
  split
  · exact .pure (.inl hb₂)
  · refine .bind ((update_spec hb₂.mine (by rw [hc]; rfl)).mono (fun affected s₃ w₃ h₃ ↦ ?_)
      fun _ _ _ h₃ ↦ h₃)
    split
    · next hn =>
      refine .pure (h₃.1.ready (by simpa using hn) fun uuid hu ↦ ?_)
      rw [h₃.2, selected, hc] at hu
      rw [hfound] at hu
      exact hu
    · exact assertStrategyTargets_throws

theorem unassignStrategy_clean
    (hc : call.request = .unassignStrategy strategyGuid guids actorGuid) :
    Clean scopeOf call (unassignStrategy strategyGuid guids actorGuid) := by
  intro s w hb
  refine transaction_spec ?_
  refine .bind ((assertStrategyTargets_spec hb).mono (fun scope s₁ w₁ h₁ ↦ ?_)
    fun _ _ _ _ ↦ trivial)
  obtain ⟨hb₁, rfl⟩ := h₁
  refine targets_spec (fun _ _ _ ↦ trivial) (fun peers s₂ w₂ hb₂ hfound ↦ ?_) hb₁
  dsimp only
  split
  · exact .pure (.inl hb₂)
  · refine .bind ((update_spec hb₂.mine (by rw [hc]; rfl)).mono (fun affected s₃ w₃ h₃ ↦ ?_)
      fun _ _ _ h₃ ↦ h₃)
    split
    · next hn =>
      refine .pure (h₃.1.ready (by simpa using hn) fun uuid hu ↦ ?_)
      rw [h₃.2, selected, hc] at hu
      rw [hfound] at hu
      exact hu
    · exact .throw trivial

theorem write_clean {uuid : String} {data : PeerUpdate} (hc : call.request = .write uuid data) :
    Clean scopeOf call (ask (.write uuid data)) := by
  intro s w hb
  refine .invoke fun w₁ ho _ ↦ ⟨hc, fun o w₂ r hx _ ↦ ?_⟩
  cases hx
  have hb₁ := hb.others ho
  rw [World.write]
  split
  · exact hb₁
  · exact ⟨hb₁.mine, hb₁.tombs⟩

theorem register_clean {peer : Peer} (hc : call.request = .register peer) :
    Clean scopeOf call (ask (.register peer)) := by
  intro s w hb
  refine .invoke fun w₁ ho _ ↦ ⟨hc, fun o w₂ r hx _ ↦ ?_⟩
  cases hx
  have hb₁ := hb.others ho
  rw [World.register]
  split
  · exact hb₁
  · exact ⟨hb₁.mine, hb₁.tombs⟩

theorem serve_clean : Clean scopeOf call (serve call.request) := by
  cases hc : call.request with
  | updateDevice guid dto actorGuid => exact updateDevice_clean hc
  | updateDeviceStatus guids status actorGuid =>
    exact .bind (updateDeviceStatus_clean hc) fun _ ↦ .pure
  | deleteDevice guid actorGuid => exact deleteDevice_clean hc
  | assignStrategy strategyGuid targetGuids actorGuid =>
    exact .bind (assignStrategy_clean hc) fun _ ↦ .pure
  | unassignStrategy strategyGuid targetGuids actorGuid =>
    exact .bind (unassignStrategy_clean hc) fun _ ↦ .pure
  | write uuid data => exact write_clean hc
  | register peer => exact register_clean hc

end Operations

end RustdeskConsole.Batches
