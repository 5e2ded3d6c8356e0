import RustdeskConsole.Effects.Serial
import RustdeskConsole.Devices.Service

namespace RustdeskConsole.Devices

open Collections Effects Function
open Rbac (PermissionScope)

namespace World

/-- The id of a registered device. -/
def idOf (w : World) (uuid : String) : Option String := (w.peers uuid).map (·.id)

end World

section Buffer

variable {w : World} {snapshot : OrderedMap String BufferedPeerUpdate}

/-- The row with an update written to it. -/
def BufferedPeerUpdate.apply (update : BufferedPeerUpdate) (row : Peer) : Peer :=
  { row with
    id := update.id, ver := update.ver, modifiedAt := update.modifiedAt
    lastHeartbeat := update.lastHeartbeat }

theorem foldl_updatePeer {β : Type} (f : World → β) (g : β → String × BufferedPeerUpdate → β)
    (hf : ∀ w e, g (f w) e = f (w.updatePeer e.1 e.2.apply))
    (entries : List (String × BufferedPeerUpdate)) (w : World) :
    f (entries.foldl (fun w e ↦ w.updatePeer e.1 e.2.apply) w) = entries.foldl g (f w) :=
  (List.foldl_hom f fun w e ↦ hf w e).symm

/-- A flush that goes through writes each row the update that it took for it. -/
theorem writeBuffer_peers (uuid : String) : (w.writeBuffer snapshot (.ok ())).peers uuid =
    (w.peers uuid).map fun row ↦ (snapshot.get? uuid).elim row (·.apply row) := by
  have hfold := foldl_updatePeer World.peers
    (fun peers e ↦ update peers e.1 ((peers e.1).map e.2.apply)) (fun _ _ ↦ rfl)
    snapshot.entries w
  refine (congrFun hfold uuid).trans ?_
  rw [OrderedMap.foldl_update w.peers fun _ (change : BufferedPeerUpdate) row ↦
    row.map change.apply]
  cases snapshot.get? uuid with
  | none => exact Option.map_id'.symm
  | some change => rfl

theorem writeBuffer_tombstones :
    (w.writeBuffer snapshot (.ok ())).tombstones = w.tombstones := by
  have hfold := foldl_updatePeer World.tombstones (fun tombstones _ ↦ tombstones) (fun _ _ ↦ rfl)
    snapshot.entries w
  refine Eq.trans hfold ?_
  induction snapshot.entries with
  | nil => rfl
  | cons e entries ih => exact ih

theorem writeBuffer_peerBuffer_ok :
    (w.writeBuffer snapshot (.ok ())).peerBuffer = w.peerBuffer := by
  have hfold := foldl_updatePeer World.peerBuffer (fun buffer _ ↦ buffer) (fun _ _ ↦ rfl)
    snapshot.entries w
  refine Eq.trans hfold ?_
  induction snapshot.entries with
  | nil => rfl
  | cons e entries ih => exact ih

/-- What a failed flush gives back does not replace anything newer. -/
theorem writeBuffer_peerBuffer (failure : Failure) (uuid : String) :
    (w.writeBuffer snapshot (.error failure)).peerBuffer.get? uuid =
      (w.peerBuffer.get? uuid).or (snapshot.get? uuid) :=
  OrderedMap.get?_foldl_fill w.peerBuffer

end Buffer

/-- The same devices are registered under the same ids, and none is restored. -/
structure Calm (w w' : World) : Prop where
  ids : w'.idOf = w.idOf
  deleted : ∀ uuid, (w.tombstones uuid).isSome → (w'.tombstones uuid).isSome

namespace Calm

variable {w w' w'' : World}

theorem refl : Calm w w := ⟨rfl, fun _ h ↦ h⟩

theorem trans (h : Calm w w') (h' : Calm w' w'') : Calm w w'' :=
  ⟨h'.ids.trans h.ids, fun uuid hd ↦ h'.deleted uuid (h.deleted uuid hd)⟩

theorem of_eq (hp : w'.peers = w.peers) (ht : w'.tombstones = w.tombstones) : Calm w w' where
  ids := by
    funext uuid
    rw [World.idOf, hp, World.idOf]
  deleted uuid hd := ht ▸ hd

theorem updatePeer {uuid : String} {f : Peer → Peer} (hf : ∀ row, (f row).id = row.id) :
    Calm w (w.updatePeer uuid f) where
  ids := by
    funext u
    by_cases hu : u = uuid
    · subst hu
      simp [World.idOf, World.updatePeer, Function.comp_def, hf]
    · simp [World.idOf, World.updatePeer, hu]
  deleted _ hd := hd

end Calm

/-- The commands that neither register, delete nor restore a device, nor write
what heartbeats have left. -/
def Command.calm : Command → Bool
  | .savePeer .. | .writeBuffer _ | .deleteRow .. | .removeTombstone _ => false
  | _ => true

variable {w w' w₀ : World} {call : Call}

theorem findTombstone_calm {uuid : String} {tombstone : Option DeviceTombstone}
    (h : w.findTombstone call uuid = (w', tombstone)) :
    Calm w w' ∧ tombstone = w.tombstones uuid := by
  rw [World.findTombstone] at h
  split at h
  · next hn =>
    cases h
    exact ⟨.of_eq rfl rfl, hn.symm⟩
  · next hs =>
    cases h
    exact ⟨.of_eq rfl rfl, hs.symm⟩

theorem syncDeviceBans_calm {add remove : List String} {event : Event} {o : BanOutcome}
    {r : DeviceBanSyncResult} (h : w.syncDeviceBans call add remove event o = (w', r)) :
    Calm w w' := by
  cases o with
  | applied =>
    cases h
    exact .of_eq rfl rfl
  | notConfigured =>
    cases h
    exact .refl
  | failed detail onItsWay =>
    cases onItsWay with
    | true =>
      cases h
      exact .of_eq rfl rfl
    | false =>
      cases h
      exact .refl

theorem exec_calm {c : Command} (hc : c.calm = true) {o : Choice} {r : Reply c}
    (he : exec call c o w = (w', some r)) : Calm w w' := by
  cases c with
  | savePeer => cases hc
  | writeBuffer => cases hc
  | deleteRow => cases hc
  | removeTombstone => cases hc
  | findTombstone uuid => exact (findTombstone_calm (map_some_inj he)).1
  | saveSysinfo sysinfo =>
    rw [exec] at he
    split at he
    · cases he
      exact .refl
    · cases he
      exact .of_eq rfl rfl
  | setDeviceGroup uuid deviceGroupGuid =>
    rw [exec] at he
    split at he
    · cases he
      exact .refl
    · cases he
      exact .updatePeer fun _ ↦ rfl
  | setNote uuid note =>
    rw [exec] at he
    split at he
    · cases he
      exact .refl
    · cases he
      exact .updatePeer fun _ ↦ rfl
  | takeBuffer =>
    have he : w.takeBuffer = (w', r) := map_some_inj he
    rw [World.takeBuffer] at he
    split at he
    · cases he
      exact .refl
    · cases he
      exact .of_eq rfl rfl
  | ban guid deviceId => exact syncDeviceBans_calm (map_some_inj he)
  | unban uuid deviceId => exact syncDeviceBans_calm (map_some_inj he)
  | patchTombstone uuid patch =>
    have he : w.patchTombstone call uuid patch o.outcome = (w', r) := map_some_inj he
    unfold World.patchTombstone at he
    split at he
    · cases he
      exact .of_eq rfl rfl
    · cases he
      refine ⟨rfl, fun u hd ↦ ?_⟩
      by_cases hu : u = uuid
      · subst hu
        simpa [World.note] using hd
      · simpa [World.note, hu] using hd
  | lateWrite index =>
    cases he
    rw [World.lateWrite]
    split
    · exact .refl
    · exact .of_eq rfl rfl
  | bufferPeerUpdate uuid data =>
    cases he
    exact .of_eq rfl rfl
  | findPeer => cases he; exact .refl
  | findSysinfo => cases he; exact .refl
  | addToAddressBook => cases he; exact .refl
  | findDeviceGroup => cases he; exact .refl
  | assertDeviceAccess => cases he; exact .refl
  | assertGlobalDeleteScope => cases he; exact .refl
  | canEnforceProtocolBans => cases he; exact .refl
  | releaseDeviceId => cases he; exact .refl

section Keys

variable (isolatedDeviceUuid : String → String → String) (uuid id : String)

/-- Whether a report stays under the uuid it came with: no row has its isolated
key, and the row of its uuid has its id. -/
def keepsRaw (w : World) : Bool :=
  (w.peers (isolatedDeviceUuid uuid id)).isNone && (w.peers uuid).any (·.id = id)

def keyOf (w : World) : String :=
  if keepsRaw isolatedDeviceUuid uuid id w then uuid else isolatedDeviceUuid uuid id

variable {isolatedDeviceUuid uuid id}

theorem keepsRaw_iff : keepsRaw isolatedDeviceUuid uuid id w = true ↔
    w.idOf (isolatedDeviceUuid uuid id) = none ∧ w.idOf uuid = some id := by
  rw [keepsRaw, World.idOf, World.idOf, Bool.and_eq_true, Option.isNone_iff_eq_none,
    Option.map_eq_none_iff, Option.any_eq_true]
  simp [Option.map_eq_some_iff]

theorem keyOf_of_raw (h : keepsRaw isolatedDeviceUuid uuid id w = true) :
    keyOf isolatedDeviceUuid uuid id w = uuid := if_pos h

theorem keyOf_of_isolated (h : ¬keepsRaw isolatedDeviceUuid uuid id w = true) :
    keyOf isolatedDeviceUuid uuid id w = isolatedDeviceUuid uuid id := if_neg h

theorem keepsRaw_congr (h : w'.idOf = w.idOf) :
    keepsRaw isolatedDeviceUuid uuid id w' = keepsRaw isolatedDeviceUuid uuid id w := by
  rw [Bool.eq_iff_iff, keepsRaw_iff, keepsRaw_iff, h]

end Keys

section Handlers

variable {isolatedDeviceUuid : String → String → String} {cloneIsolation : Bool} {α β : Type}
  {p : Handler α} {f : α → Handler β} {uuid id : String}

theorem ask_evaluates {c : Command} {r : Reply c} (h : ∀ o, exec call c o w = (w', some r)) :
    Evaluates (machine isolatedDeviceUuid cloneIsolation) call (ask c) w (.ok r) w' :=
  .invoke ⟨0, .ok ⟨true, []⟩, .ok true, .applied, ⟨true, none, none⟩, none, .ok ()⟩ h

/-- Started in a world calm since `w₀`, the handler ends in one, however it ends. -/
abbrev KeepsCalm (isolatedDeviceUuid : String → String → String) (cloneIsolation : Bool)
    (call : Call) (p : Handler α) : Prop :=
  ∀ w₀, Maintains (machine isolatedDeviceUuid cloneIsolation) call (Calm w₀) p

namespace KeepsCalm

theorem invoke {c : Command} {g : Reply c → Except Failure α} (hc : c.calm = true) :
    KeepsCalm isolatedDeviceUuid cloneIsolation call (invoke c g) :=
  fun _ ↦ .invoke fun _ _ _ _ h he ↦ h.trans (exec_calm hc he)

theorem ask {c : Command} (hc : c.calm = true) :
    KeepsCalm isolatedDeviceUuid cloneIsolation call (ask c) := invoke hc

theorem bind (hp : KeepsCalm isolatedDeviceUuid cloneIsolation call p)
    (hf : ∀ a, KeepsCalm isolatedDeviceUuid cloneIsolation call (f a)) :
    KeepsCalm isolatedDeviceUuid cloneIsolation call (p >>= f) :=
  fun w₀ ↦ (hp w₀).bind fun a ↦ hf a w₀

theorem pure {a : α} : KeepsCalm isolatedDeviceUuid cloneIsolation call (pure a : Handler α) :=
  fun _ ↦ .pure a

theorem tryCatch {g : Failure → Handler α} (hp : KeepsCalm isolatedDeviceUuid cloneIsolation call p)
    (hg : ∀ failure, KeepsCalm isolatedDeviceUuid cloneIsolation call (g failure)) :
    KeepsCalm isolatedDeviceUuid cloneIsolation call (tryCatch p g) :=
  fun w₀ w h ↦ (hp w₀ w h).tryCatch (fun _ _ h ↦ h) fun failure w' h ↦ hg failure w₀ w' h

theorem yields (hp : KeepsCalm isolatedDeviceUuid cloneIsolation call p) :
    Yields (machine isolatedDeviceUuid cloneIsolation) call p w fun _ w' ↦ Calm w w' :=
  hp w w .refl

end KeepsCalm

theorem findTombstone_yields {f : Option DeviceTombstone → Handler β}
    {Q : Except Failure β → World → Prop}
    (h : ∀ w', w'.peers = w.peers → w'.tombstones = w.tombstones →
      Yields (machine isolatedDeviceUuid cloneIsolation) call (f (w.tombstones uuid)) w' Q) :
    Yields (machine isolatedDeviceUuid cloneIsolation) call (ask (.findTombstone uuid) >>= f) w
      Q := by
  cases ht : w.tombstones uuid with
  | none =>
    refine (ask_evaluates fun o ↦ ?_).bind_yields (ht ▸ h (w.note call (.cleared uuid)) rfl rfl)
    simp [exec, World.findTombstone, ht]
  | some tombstone =>
    refine (ask_evaluates fun o ↦ ?_).bind_yields
      (ht ▸ h (w.note call (.found uuid tombstone.deviceId tombstone.banned)) rfl rfl)
    simp [exec, World.findTombstone, ht]

theorem resolveDeviceUuid_evaluates :
    Evaluates (machine isolatedDeviceUuid true) call
      (resolveDeviceUuid isolatedDeviceUuid true uuid id) w
      (.ok (keyOf isolatedDeviceUuid uuid id w)) w := by
  refine (ask_evaluates fun _ ↦ rfl).bind ?_
  rw [keyOf, keepsRaw]
  cases w.peers (isolatedDeviceUuid uuid id) with
  | some peer => exact .pure
  | none => exact (ask_evaluates fun _ ↦ rfl).bind .pure

/-- The device of a heartbeat gets a row under a key that had none and was never
deleted. -/
structure Registers (key id : String) (w w' : World) : Prop where
  fresh : w.idOf key = none
  admitted : w.tombstones key = none
  ids : w'.idOf = update w.idOf key (some id)
  tombstones : w'.tombstones = w.tombstones

theorem savePeer_registers {peer : Peer} {o : Except Failure Unit} {x : Except Failure Unit}
    (hp : w.peers peer.uuid = none) (ht : w.tombstones peer.uuid = none)
    (h : w.savePeer call peer o = (w', x)) : Calm w w' ∨ Registers peer.uuid peer.id w w' := by
  cases o with
  | error failure =>
    cases h
    exact .inl .refl
  | ok u =>
    rw [World.savePeer, hp] at h
    cases h
    refine .inr ⟨?_, ht, ?_, rfl⟩
    · rw [World.idOf, hp]
      rfl
    · funext u
      by_cases hu : u = peer.uuid
      · subst hu
        simp [World.idOf, World.note]
      · simp [World.idOf, World.note, hu]

theorem register_yields {data : HeartbeatDto} :
    Yields (machine isolatedDeviceUuid cloneIsolation) call (register uuid data) w fun _ w' ↦
      Calm w w' ∨ Registers uuid data.id w w' := by
  refine (ask_evaluates fun _ ↦ rfl).bind_yields ?_
  cases hp : w.peers uuid with
  | some peer => exact (KeepsCalm.ask rfl).yields.mono fun _ _ ↦ .inl
  | none =>
    refine findTombstone_yields fun w₁ hp₁ ht₁ ↦ ?_
    have hcalm : Calm w w₁ := .of_eq hp₁ ht₁
    cases ht : w.tombstones uuid with
    | some tombstone => exact .pure (.inl hcalm)
    | none =>
      refine .invoke fun o w₂ x he ↦ ?_
      rcases savePeer_registers (by rw [hp₁, hp]) (by rw [ht₁, ht]) (map_some_inj he) with h | h
      · exact .inl (hcalm.trans h)
      · refine .inr ⟨?_, ht, ?_, h.tombstones.trans ht₁⟩
        · rw [← hcalm.ids]
          exact h.fresh
        · rw [← hcalm.ids]
          exact h.ids

/-- Whether a heartbeat is dropped before it gets a key. -/
def dropped (w : World) (data : HeartbeatDto) : Bool :=
  (w.tombstones data.uuid).any (·.deviceId = data.id)

theorem handleHeartbeat_yields {data : HeartbeatDto} :
    Yields (machine isolatedDeviceUuid true) call (handleHeartbeat isolatedDeviceUuid true data) w
      fun _ w' ↦ Calm w w' ∨ dropped w data = false ∧
        Registers (keyOf isolatedDeviceUuid data.uuid data.id w) data.id w w' := by
  have hd : Yields (machine isolatedDeviceUuid true) call (deletedBefore true data) w
      fun x w' ↦ x = .ok (dropped w data) ∧ w'.peers = w.peers ∧ w'.tombstones = w.tombstones :=
    findTombstone_yields fun w₁ hp₁ ht₁ ↦ .pure ⟨rfl, hp₁, ht₁⟩
  refine hd.bind (fun deleted w₁ h₁ ↦ ?_) fun _ _ h₁ ↦ nomatch h₁.1
  obtain ⟨hx, hp₁, ht₁⟩ := h₁
  cases hx
  have hcalm : Calm w w₁ := .of_eq hp₁ ht₁
  cases hdrop : dropped w data with
  | true => exact .pure (.inl hcalm)
  | false =>
    have hkey : keyOf isolatedDeviceUuid data.uuid data.id w₁ =
        keyOf isolatedDeviceUuid data.uuid data.id w := by
      rw [keyOf, keepsRaw_congr hcalm.ids, keyOf]
    refine resolveDeviceUuid_evaluates.bind_yields (register_yields.mono fun _ w₂ h₂ ↦ ?_)
    rcases h₂ with h₂ | h₂
    · exact .inl (hcalm.trans h₂)
    · rw [hkey] at h₂
      refine .inr ⟨rfl, ?_, ?_, ?_, h₂.tombstones.trans ht₁⟩
      · rw [← hcalm.ids]
        exact h₂.fresh
      · rw [← ht₁]
        exact h₂.admitted
      · rw [← hcalm.ids]
        exact h₂.ids

theorem resolveDeviceUuid_calm : KeepsCalm isolatedDeviceUuid cloneIsolation call
    (resolveDeviceUuid isolatedDeviceUuid cloneIsolation uuid id) := by
  unfold resolveDeviceUuid
  split
  · refine .bind (.ask rfl) fun existing ↦ ?_
    split
    · exact .pure
    · exact .bind (.ask rfl) fun legacy ↦ .pure
  · exact .pure

theorem addToDeviceGroup_calm {sysinfo : Sysinfo} :
    KeepsCalm isolatedDeviceUuid cloneIsolation call (addToDeviceGroup sysinfo) := by
  refine .bind (.ask rfl) fun deviceGroup ↦ ?_
  split
  · exact .pure
  · refine .bind (.ask rfl) fun peer ↦ ?_
    split
    · exact .pure
    · exact .invoke rfl

theorem setPresetNote_calm {presetNote : String} :
    KeepsCalm isolatedDeviceUuid cloneIsolation call (setPresetNote uuid presetNote) := by
  refine .bind (.ask rfl) fun peer ↦ ?_
  split
  · exact .pure
  · split
    · exact .invoke rfl
    · exact .pure

theorem processPresetSettings_calm {sysinfo : Sysinfo} {dto : SysinfoDto} :
    KeepsCalm isolatedDeviceUuid cloneIsolation call (processPresetSettings sysinfo dto) := by
  have hbefore : ∀ {c : Bool} {first last : Handler Unit},
      KeepsCalm isolatedDeviceUuid cloneIsolation call first →
      KeepsCalm isolatedDeviceUuid cloneIsolation call last →
      KeepsCalm isolatedDeviceUuid cloneIsolation call
        (if c then first >>= fun _ ↦ last else last) := by
    intro c first last hfirst hlast
    cases c with
    | true => exact .bind hfirst fun _ ↦ hlast
    | false => exact hlast
  refine .tryCatch (hbefore (.invoke rfl) (hbefore addToDeviceGroup_calm ?_)) fun _ ↦ .pure
  split
  · exact .pure
  · exact setPresetNote_calm

theorem createSysinfo_calm {dto : SysinfoDto} : KeepsCalm isolatedDeviceUuid cloneIsolation call
    (createSysinfo isolatedDeviceUuid cloneIsolation dto) := by
  unfold createSysinfo
  split
  · exact .pure
  · cases truthy dto.id
    case' none => refine .bind .pure fun uuid ↦ ?_
    case' some id => refine .bind resolveDeviceUuid_calm fun uuid ↦ ?_
    all_goals
      refine .bind (.ask rfl) fun peer ↦ ?_
      split
      · exact .pure
      · refine .bind (.ask rfl) fun existing ↦ .bind (.invoke rfl) fun _ ↦ ?_
        exact .bind processPresetSettings_calm fun _ ↦ .pure

/-- A flush writes all that was buffered, or keeps it. -/
inductive Flushes (w w' : World) : Prop
  | kept : w'.idOf = w.idOf → (∀ uuid, (w.peerBuffer.get? uuid).isSome →
      (w'.peerBuffer.get? uuid).isSome) → Flushes w w'
  | written : (∀ uuid, w'.idOf uuid = (w.idOf uuid).map fun id ↦
      (w.peerBuffer.get? uuid).elim id (·.id)) → (∀ uuid, w'.peerBuffer.get? uuid = none) →
      Flushes w w'

theorem flush_yields : Yields (machine isolatedDeviceUuid cloneIsolation) call flush w fun _ w' ↦
    Flushes w w' ∧ w'.tombstones = w.tombstones := by
  have htake : ∀ o, exec call .takeBuffer o w = w.takeBuffer.map id some := fun _ ↦ rfl
  rw [World.takeBuffer] at htake
  split at htake
  · refine (ask_evaluates htake).bind_yields (.pure ⟨.kept rfl fun _ h ↦ h, rfl⟩)
  · refine (ask_evaluates htake).bind_yields (.invoke fun o w₁ r he ↦ ?_)
    cases he
    cases hout : o.outcome with
    | error failure =>
      refine ⟨.kept rfl fun uuid h ↦ ?_, rfl⟩
      rw [writeBuffer_peerBuffer]
      exact h
    | ok u =>
      refine ⟨.written (fun uuid ↦ ?_) fun uuid ↦ ?_, writeBuffer_tombstones⟩
      · rw [World.idOf, writeBuffer_peers, World.idOf, Option.map_map, Option.map_map]
        refine congrFun (congrArg Option.map (funext fun row ↦ ?_)) _
        cases hb : w.peerBuffer.get? uuid with
        | none => simp
        | some change => simp [BufferedPeerUpdate.apply]
      · rw [writeBuffer_peerBuffer_ok]
        exact OrderedMap.get?_empty

/-- A row is deleted, and its tombstone stands. -/
structure Removes (guid : String) (w w' : World) : Prop where
  ids : w'.idOf = update w.idOf guid none
  deleted : ∀ uuid, uuid = guid ∨ (w.tombstones uuid).isSome → (w'.tombstones uuid).isSome

theorem deleteRow_removes {guid deviceId actorGuid : String} {scope : PermissionScope}
    {o x : Except Failure Unit}
    (h : w.deleteRow call guid deviceId actorGuid scope o = (w', x)) :
    (w' = w ∧ ∃ failure, x = .error failure) ∨ Removes guid w w' := by
  cases o with
  | error failure =>
    cases h
    exact .inl ⟨rfl, failure, rfl⟩
  | ok u =>
    rw [World.deleteRow] at h
    split at h
    · cases h
      refine .inr ⟨?_, fun uuid hu ↦ ?_⟩
      · funext u
        by_cases hu : u = guid
        · subst hu
          simp [World.idOf, World.note]
        · simp [World.idOf, World.note, hu]
      · by_cases hg : uuid = guid
        · subst hg
          simp [World.note]
        · simpa [World.note, hg] using hu
    · cases h
      exact .inl ⟨rfl, _, rfl⟩

theorem Removes.trans {guid : String} {w'' : World} (h : Removes guid w w') (h' : Calm w' w'') :
    Removes guid w w'' where
  ids := h'.ids.trans h.ids
  deleted uuid hd := h'.deleted uuid (h.deleted uuid hd)

theorem enforceIf_calm {condition : Bool} {sync : Handler DeviceBanSyncResult}
    (hs : KeepsCalm isolatedDeviceUuid cloneIsolation call sync) :
    KeepsCalm isolatedDeviceUuid cloneIsolation call (enforceIf condition sync) := by
  have henforce : KeepsCalm isolatedDeviceUuid cloneIsolation call (enforce sync) := by
    refine .bind (.tryCatch (.bind (.invoke rfl) fun _ ↦ .pure) fun _ ↦ .pure) fun permitted ↦ ?_
    split
    · exact hs
    · exact .pure
    · exact .pure
  unfold enforceIf
  split
  · exact .bind henforce fun _ ↦ .pure
  · exact .pure

theorem followUp_calm {guid deviceId : String} {protocolBan releaseId : Bool} :
    KeepsCalm isolatedDeviceUuid cloneIsolation call
      (followUp guid deviceId protocolBan releaseId) := by
  refine .bind (enforceIf_calm (.ask rfl)) fun protocolEnforcement ↦ ?_
  refine .bind (enforceIf_calm (.ask rfl)) fun idRelease ↦ ?_
  dsimp only
  split
  · exact .bind .pure fun _ ↦ .pure
  · exact .bind (.invoke rfl) fun _ ↦ .pure

theorem deleteDevice_yields {guid actorGuid : String} {protocolBan releaseId : Bool} :
    Yields (machine isolatedDeviceUuid cloneIsolation) call
      (deleteDevice guid actorGuid protocolBan releaseId) w fun _ w' ↦
        Calm w w' ∨ Removes guid w w' := by
  have haccess : KeepsCalm isolatedDeviceUuid cloneIsolation call
      (invoke (.assertDeviceAccess guid) fun reply ↦ reply) := .invoke rfl
  refine haccess.yields.bind (fun a w₁ h₁ ↦ ?_) fun _ _ h₁ ↦ .inl h₁
  obtain ⟨scope, peer⟩ := a
  have hremoves : ∀ {w₂ w₃}, Calm w₁ w₂ ∨ Removes guid w₁ w₂ → Calm w₂ w₃ →
      Calm w w₃ ∨ Removes guid w w₃ := by
    intro w₂ w₃ h₂ h₃
    rcases h₂ with h₂ | h₂
    · exact .inl (h₁.trans (h₂.trans h₃))
    · have h := h₂.trans h₃
      exact .inr ⟨h₁.ids ▸ h.ids, fun uuid hd ↦ h.deleted uuid (hd.imp_right (h₁.deleted uuid))⟩
  refine Yields.bind (P := fun _ w₂ ↦ Calm w₁ w₂ ∨ Removes guid w₁ w₂) ?_ (fun _ w₂ h₂ ↦ ?_)
    fun _ _ h₂ ↦ hremoves h₂ .refl
  · refine Yields.tryCatch (P := fun x w₂ ↦ (w₂ = w₁ ∧ ∃ failure, x = .error failure) ∨
      Removes guid w₁ w₂) (.invoke fun o w₂ x he ↦ deleteRow_removes (map_some_inj he)) ?_ ?_
    · intro _ w₂ h₂
      obtain ⟨-, failure, hx⟩ | h₂ := h₂
      · cases hx
      · exact .inr h₂
    · intro failure w₂ h₂
      have hcases : Calm w₁ w₂ ∨ Removes guid w₁ w₂ := by
        obtain ⟨rfl, -⟩ | h₂ := h₂
        · exact .inl .refl
        · exact .inr h₂
      cases failure with
      | conflict message =>
        refine haccess.yields.bind (fun _ w₃ h₃ ↦ .throw ?_) fun _ w₃ h₃ ↦ ?_
        · exact hcases.imp (·.trans h₃) (·.trans h₃)
        · exact hcases.imp (·.trans h₃) (·.trans h₃)
      | notFound message => exact .throw hcases
      | forbidden message => exact .throw hcases
      | error message => exact .throw hcases
  · exact followUp_calm.yields.mono fun _ w₃ h₃ ↦ hremoves h₂ h₃

end Handlers

end RustdeskConsole.Devices
