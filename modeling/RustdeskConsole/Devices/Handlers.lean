import RustdeskConsole.Devices.Ledger

namespace RustdeskConsole.Devices

open Effects Effects.History Function

section Overtaking

variable {h : History} {call other : Call} {uuid : String} {event : Event} {l : Ledger}

/-- Since the call found no tombstone of the device, somebody deleted it, and
nobody has restored it after that. -/
def Overtaken (h : History) (call : Call) (uuid : String) : Prop :=
  Standing (fun e earlier ↦ (∃ deviceId, e.2 = .deleted uuid deviceId) ∧
    (call, .cleared uuid) ∈ earlier) (fun e ↦ e.2 = .removed uuid true) h

theorem overtaken_cons : Overtaken ((other, event) :: h) call uuid ↔
    ((∃ deviceId, event = .deleted uuid deviceId) ∧ (call, .cleared uuid) ∈ h) ∨
      event ≠ .removed uuid true ∧ Overtaken h call uuid :=
  standing_cons

/-- What the tombstones and the history say of each other. -/
structure Sound (l : Ledger) (h : History) : Prop where
  stands : ∀ call uuid, Overtaken h call uuid → (l.deleted uuid).isSome
  overtaken : ∀ call uuid, (call, .cleared uuid) ∈ h → (l.deleted uuid).isSome →
    Overtaken h call uuid

theorem sound_nil : Sound l [] where
  stands := by
    rintro call uuid ⟨later, e, earlier, he, -⟩
    simp at he
  overtaken call uuid hm := by cases hm

theorem Sound.overtaken_iff (hs : Sound l h) (hc : (call, .cleared uuid) ∈ h) :
    Overtaken h call uuid ↔ l.deleted uuid ≠ none := by
  rw [← Option.isSome_iff_ne_none]
  exact ⟨hs.stands call uuid, hs.overtaken call uuid hc⟩

/-- The deleted devices after an event. -/
theorem after_deleted_isSome (h : History) (u : String) :
    ((l.after h call event).deleted u).isSome = true ↔ (∃ deviceId, event = .deleted u deviceId) ∨
      event ≠ .removed u true ∧ (l.deleted u).isSome = true := by
  cases event with
  | deleted uuid deviceId =>
    by_cases hu : u = uuid
    · subst hu
      simp [Ledger.after]
    · simp [Ledger.after, hu, Ne.symm hu]
  | removed uuid saved =>
    cases saved with
    | false => simp [Ledger.after]
    | true =>
      by_cases hu : u = uuid
      · subst hu
        simp [Ledger.after]
      · simp [Ledger.after, hu, Ne.symm hu]
  | patched uuid saved =>
    cases saved with
    | false => simp [Ledger.after]
    | true => simp [Ledger.after]
  | _ => simp [Ledger.after]

theorem Sound.log (hs : Sound l h) (ha : l.Allows h call event) :
    Sound (l.after h call event) ((call, event) :: h) where
  stands other u ho := by
    rw [after_deleted_isSome]
    rcases overtaken_cons.mp ho with ⟨hd, -⟩ | ⟨hne, ho⟩
    · exact .inl hd
    · exact .inr ⟨hne, hs.stands other u ho⟩
  overtaken other u hm hd := by
    rw [after_deleted_isSome] at hd
    refine overtaken_cons.mpr ?_
    rcases List.mem_cons.mp hm with heq | hm
    · cases heq
      rcases hd with ⟨deviceId, he⟩ | ⟨-, hsome⟩
      · cases he
      · rw [show l.deleted u = none from ha] at hsome
        cases hsome
    · exact hd.imp (fun he ↦ ⟨he, hm⟩) fun ⟨hne, hsome⟩ ↦ ⟨hne, hs.overtaken other u hm hsome⟩

end Overtaking

section Logic

variable {call other : Call} {c : Command} {w w' : World}

theorem Moves.adds (hm : Moves call c w w') :
    Adds (fun e ↦ e.1 = call ∧ notes c e.2) w.history w'.history := by
  cases hm with
  | still hh hl =>
    rw [hh]
    exact .refl _
  | logs event hn ha hh hl =>
    rw [hh]
    exact (Adds.refl _).cons ⟨rfl, hn⟩

theorem Moves.sound (hm : Moves call c w w') (hs : Sound w.ledger w.history) :
    Sound w'.ledger w'.history := by
  cases hm with
  | still hh hl => rwa [hh, hl]
  | logs event hn ha hh hl =>
    rw [hh, hl]
    exact hs.log ha

/-- Between two commands of one call the others only add events of their own. -/
def logic (isolatedDeviceUuid : String → String → String) (cloneIsolation : Bool) :
    Logic (machine isolatedDeviceUuid cloneIsolation) where
  inv w := Sound w.ledger w.history
  guard := guard
  rely call w w' := Adds (fun e ↦ e.1 ≠ call) w.history w'.history
  rely_refl _ w := .refl _
  rely_trans _ := Adds.trans
  keeps o _ hi hg := (exec_moves o hg).sound hi
  interferes {call other c} o w hne hi hg := by
    refine (exec_moves o hg).adds.mono fun e he ↦ ?_
    rw [he.1]
    exact hne.symm

end Logic

variable {isolatedDeviceUuid : String → String → String} {cloneIsolation : Bool}
  {call : Call} {α β : Type} {P : Event → Prop}

/-- A handler all of whose events are `P`. -/
def Within (isolatedDeviceUuid : String → String → String) (cloneIsolation : Bool) (call : Call)
    (P : Event → Prop) (p : Handler α) : Prop :=
  ∀ s w, (logic isolatedDeviceUuid cloneIsolation).Ensures call p
    (fun _ _ w' ↦ Adds (fun e ↦ e.1 = call → P e.2) w.history w'.history)
    (fun _ _ w' ↦ Adds (fun e ↦ e.1 = call → P e.2) w.history w'.history) s w

namespace Within

variable {p : Handler α}

theorem pure {a : α} :
    Within isolatedDeviceUuid cloneIsolation call P (pure a : Handler α) :=
  fun _ w ↦ .pure (.refl w.history)

theorem throw {failure : Failure} :
    Within isolatedDeviceUuid cloneIsolation call P (throw failure : Handler α) :=
  fun _ w ↦ .throw (.refl w.history)

theorem bind {f : α → Handler β} (hp : Within isolatedDeviceUuid cloneIsolation call P p)
    (hf : ∀ a, Within isolatedDeviceUuid cloneIsolation call P (f a)) :
    Within isolatedDeviceUuid cloneIsolation call P (p >>= f) := by
  intro s w
  refine .bind ((hp s w).mono (fun a s₁ w₁ h₁ ↦ ?_) fun _ _ _ h₁ ↦ h₁)
  exact (hf a s₁ w₁).mono (fun _ _ _ h₂ ↦ h₁.trans h₂) fun _ _ _ h₂ ↦ h₁.trans h₂

theorem tryCatch {f : Failure → Handler α} (hp : Within isolatedDeviceUuid cloneIsolation call P p)
    (hf : ∀ failure, Within isolatedDeviceUuid cloneIsolation call P (f failure)) :
    Within isolatedDeviceUuid cloneIsolation call P (tryCatch p f) := by
  intro s w
  refine .tryCatch ((hp s w).mono (fun _ _ _ h₁ ↦ h₁) fun failure s₁ w₁ h₁ ↦ ?_)
  exact (hf failure s₁ w₁).mono (fun _ _ _ h₂ ↦ h₁.trans h₂) fun _ _ _ h₂ ↦ h₁.trans h₂

theorem invoke {c : Command} {f : Reply c → Except Failure α} (hc : ∀ e, notes c e → P e)
    (hg : ∀ w, guard call c w) :
    Within isolatedDeviceUuid cloneIsolation call P (invoke c f) := by
  intro s w
  refine .invoke fun w₁ hr _ ↦ ⟨hg w₁, fun o w₂ r hx _ ↦ ?_⟩
  have ha := (exec_moves o (hg w₁)).adds
  rw [show exec call c o w₁ = (w₂, some r) from hx] at ha
  have hall : Adds (fun e ↦ e.1 = call → P e.2) w.history w₂.history :=
    (Adds.mono hr fun _ hne heq ↦ absurd heq hne).trans (ha.mono fun e he _ ↦ hc e.2 he.2)
  rcases f r with _ | _ <;> exact hall

theorem ask {c : Command} (hc : ∀ e, notes c e → P e) (hg : ∀ w, guard call c w) :
    Within isolatedDeviceUuid cloneIsolation call P (ask c) :=
  invoke hc hg

theorem ensures {s : Unit} {w : World} {Q : α → Unit → World → Prop}
    {E : Failure → Unit → World → Prop} (hp : Within isolatedDeviceUuid cloneIsolation call P p)
    (hq : ∀ a s' w', Adds (fun e ↦ e.1 = call → P e.2) w.history w'.history → Q a s' w')
    (he : ∀ failure s' w', Adds (fun e ↦ e.1 = call → P e.2) w.history w'.history → E failure s' w') :
    (logic isolatedDeviceUuid cloneIsolation).Ensures call p Q E s w :=
  (hp s w).mono hq he

end Within

/-- The events that leave nothing to be followed up. -/
def Event.Calm : Event → Prop
  | .cleared _ | .found .. | .registered _ | .deleted .. | .overwritten _ => True
  | .banned .. | .patched .. | .lifted .. | .removed .. => False

theorem calm_of_find {uuid : String} {event : Event} (he : notes (.findTombstone uuid) event) :
    event.Calm := by
  rcases he with rfl | ⟨deviceId, banned, rfl⟩
  · trivial
  · trivial

/-- A ban that the call applied is followed by the call's record of it, and a ban
that it lifted by the removal of the tombstone, whether they are saved or not. -/
structure Settled (call : Call) (h : History) : Prop where
  banned : ∀ uuid deviceId, (call, .banned uuid deviceId) ∈ h → ∃ u saved, (call, .patched u saved) ∈ h
  lifted : ∀ uuid deviceId, (call, .lifted uuid deviceId) ∈ h → ∃ u saved, (call, .removed u saved) ∈ h

theorem Settled.of_calm {call : Call} {h : History} (ho : Own call Event.Calm h) : Settled call h :=
  ⟨fun _ _ hm ↦ (ho _ hm).elim, fun _ _ hm ↦ (ho _ hm).elim⟩

theorem Settled.others {call : Call} {h h' : History} (hs : Settled call h)
    (ha : Adds (fun e ↦ e.1 ≠ call) h h') : Settled call h' where
  banned uuid deviceId hm := by
    rcases ha.new _ hm with hm | hne
    · obtain ⟨u, saved, hp⟩ := hs.banned uuid deviceId hm
      exact ⟨u, saved, ha.mem hp⟩
    · exact absurd rfl hne
  lifted uuid deviceId hm := by
    rcases ha.new _ hm with hm | hne
    · obtain ⟨u, saved, hp⟩ := hs.lifted uuid deviceId hm
      exact ⟨u, saved, ha.mem hp⟩
    · exact absurd rfl hne

variable {isolatedDeviceUuid : String → String → String} {cloneIsolation : Bool} {call : Call}
  {P : Event → Prop} {w : World} {s : Unit}

section Reports

variable {uuid id : String} {data : HeartbeatDto} {dto : SysinfoDto} {sysinfo : Sysinfo}

theorem resolveDeviceUuid_within : Within isolatedDeviceUuid cloneIsolation call P
    (resolveDeviceUuid isolatedDeviceUuid cloneIsolation uuid id) := by
  unfold resolveDeviceUuid
  split
  · refine .bind (.ask (fun _ ↦ False.elim) fun _ ↦ trivial) fun existing ↦ ?_
    split
    · exact .pure
    · exact .bind (.ask (fun _ ↦ False.elim) fun _ ↦ trivial) fun legacy ↦ .pure
  · exact .pure

theorem deletedBefore_within : Within isolatedDeviceUuid cloneIsolation call Event.Calm
    (deletedBefore cloneIsolation data) := by
  unfold deletedBefore
  split
  · exact .bind (.ask (fun _ ↦ calm_of_find) fun _ ↦ trivial) fun legacyTombstone ↦ .pure
  · exact .pure

theorem register_within :
    Within isolatedDeviceUuid cloneIsolation call Event.Calm (register uuid data) := by
  refine .bind (.ask (fun _ ↦ False.elim) fun _ ↦ trivial) fun existingPeer ↦ ?_
  split
  · exact .ask (fun _ ↦ False.elim) fun _ ↦ trivial
  · intro s w
    refine .bind (.invoke fun w₁ h₁ _ ↦ ⟨trivial, fun o w₂ tombstone hx _ ↦ ?_⟩)
    have h₁ : Adds (fun e ↦ e.1 = call → e.2.Calm) w.history w₁.history :=
      Adds.mono h₁ fun _ hne heq ↦ absurd heq hne
    rcases findTombstone_cases (map_some_inj hx) with
      ⟨rfl, -, rfl⟩ | ⟨tombstone, rfl, -, rfl⟩
    · have h₂ := h₁.cons (e := (call, Event.cleared uuid)) fun _ ↦ trivial
      refine .invoke fun w₃ h₃ _ ↦ ⟨h₃.mem (.head _), fun o w₄ r hx _ ↦ ?_⟩
      have h₄ := (exec_moves (c := .savePeer uuid data) o (h₃.mem (.head _))).adds
      rw [show exec call (.savePeer uuid data) o w₃ = (w₄, some r) from hx] at h₄
      have hall : Adds (fun e ↦ e.1 = call → e.2.Calm) w.history w₄.history := by
        refine (h₂.trans (Adds.mono h₃ fun _ hne heq ↦ absurd heq hne)).trans
          (h₄.mono fun e he _ ↦ ?_)
        rw [he.2]
        trivial
      cases r with
      | error failure => exact hall
      | ok _ => exact hall
    · exact .pure (h₁.cons (e := (call, Event.found uuid _ _)) fun _ ↦ trivial)

theorem handleHeartbeat_within : Within isolatedDeviceUuid cloneIsolation call Event.Calm
    (handleHeartbeat isolatedDeviceUuid cloneIsolation data) := by
  refine .bind deletedBefore_within fun deleted ↦ ?_
  split
  · exact .pure
  · exact .bind resolveDeviceUuid_within fun uuid ↦ register_within

theorem addToDeviceGroup_within :
    Within isolatedDeviceUuid cloneIsolation call P (addToDeviceGroup sysinfo) := by
  refine .bind (.ask (fun _ ↦ False.elim) fun _ ↦ trivial) fun deviceGroup ↦ ?_
  split
  · exact .pure
  · refine .bind (.ask (fun _ ↦ False.elim) fun _ ↦ trivial) fun peer ↦ ?_
    split
    · exact .pure
    · exact .invoke (fun _ ↦ False.elim) fun _ ↦ trivial

theorem setPresetNote_within {presetNote : String} :
    Within isolatedDeviceUuid cloneIsolation call P (setPresetNote uuid presetNote) := by
  refine .bind (.ask (fun _ ↦ False.elim) fun _ ↦ trivial) fun peer ↦ ?_
  split
  · exact .pure
  · split
    · exact .invoke (fun _ ↦ False.elim) fun _ ↦ trivial
    · exact .pure

theorem processPresetSettings_within :
    Within isolatedDeviceUuid cloneIsolation call P (processPresetSettings sysinfo dto) := by
  have hbefore : ∀ {c : Bool} {first last : Handler Unit},
      Within isolatedDeviceUuid cloneIsolation call P first →
      Within isolatedDeviceUuid cloneIsolation call P last →
      Within isolatedDeviceUuid cloneIsolation call P
        (if c then first >>= fun _ ↦ last else last) := by
    intro c first last hfirst hlast
    cases c with
    | true => exact .bind hfirst fun _ ↦ hlast
    | false => exact hlast
  refine .tryCatch (hbefore (.invoke (fun _ ↦ False.elim) fun _ ↦ trivial)
    (hbefore addToDeviceGroup_within ?_)) fun _ ↦ .pure
  split
  · exact .pure
  · exact setPresetNote_within

theorem createSysinfo_within : Within isolatedDeviceUuid cloneIsolation call P
    (createSysinfo isolatedDeviceUuid cloneIsolation dto) := by
  unfold createSysinfo
  split
  · exact .pure
  · cases truthy dto.id
    case' none => refine .bind .pure fun uuid ↦ ?_
    case' some id => refine .bind resolveDeviceUuid_within fun uuid ↦ ?_
    all_goals
      refine .bind (.ask (fun _ ↦ False.elim) fun _ ↦ trivial) fun peer ↦ ?_
      split
      · exact .pure
      · refine .bind (.ask (fun _ ↦ False.elim) fun _ ↦ trivial) fun existing ↦ ?_
        refine .bind (.invoke (fun _ ↦ False.elim) fun _ ↦ trivial) fun _ ↦ ?_
        exact .bind processPresetSettings_within fun _ ↦ .pure

theorem flush_within : Within isolatedDeviceUuid cloneIsolation call P flush := by
  refine .bind (.ask (fun _ ↦ False.elim) fun _ ↦ trivial) fun snapshot ↦ ?_
  split
  · exact .pure
  · exact .ask (fun _ ↦ False.elim) fun _ ↦ trivial

end Reports

section Deletion

variable {uuid deviceId : String} {event : Event} {E : Failure → Unit → World → Prop}
  {Q : DeviceBanSyncResult → Unit → World → Prop}

/-- The call left calm events, and the event of a follow-up just if it is in force. -/
structure Synced (call : Call) (event : Event) (inForce : Bool) (h : History) : Prop where
  own : Own call (fun e ↦ e.Calm ∨ e = event) h
  iff : inForce = true ↔ (call, event) ∈ h

theorem Synced.others {inForce : Bool} {h h' : History} (hs : Synced call event inForce h)
    (ha : Adds (fun e ↦ e.1 ≠ call) h h') : Synced call event inForce h' where
  own := hs.own.others ha
  iff := by
    rw [hs.iff]
    refine ⟨ha.mem, fun hm ↦ ?_⟩
    rcases ha.new _ hm with hm | hne
    · exact hm
    · exact absurd rfl hne

theorem Synced.of_calm {h : History} (ho : Own call Event.Calm h) (he : ¬event.Calm) :
    Synced call event false h where
  own := ho.mono fun _ ↦ .inl
  iff := ⟨nofun, fun hm ↦ absurd (ho _ hm) he⟩

theorem syncDeviceBans_cases {add remove : List String} {o : BanOutcome} {w' : World}
    {r : DeviceBanSyncResult} (h : w.syncDeviceBans call add remove event o = (w', r)) :
    (r.enforced = true ∧ w'.history = (call, event) :: w.history) ∨
      (r.enforced = false ∧ w'.history = w.history) := by
  cases o with
  | applied =>
    obtain ⟨rfl, rfl⟩ := Prod.mk.inj h
    exact .inl ⟨rfl, rfl⟩
  | notConfigured =>
    obtain ⟨rfl, rfl⟩ := Prod.mk.inj h
    exact .inr ⟨rfl, rfl⟩
  | failed detail onItsWay =>
    obtain ⟨rfl, rfl⟩ := Prod.mk.inj h
    refine .inr ⟨rfl, ?_⟩
    split <;> rfl

theorem sync_ensures {c : Command} {add remove : List String} {f : Reply c → DeviceBanSyncResult}
    (hx : ∀ o w w' r, exec call c o w = (w', some r) →
      w.syncDeviceBans call add remove event o.ban = (w', f r))
    (hg : ∀ w', Own call Event.Calm w'.history → guard call c w') (he : ¬event.Calm)
    (ho : Own call Event.Calm w.history) :
    (logic isolatedDeviceUuid cloneIsolation).Ensures call (invoke c fun r ↦ .ok (f r))
      (fun r _ w' ↦ Synced call event r.enforced w'.history) E s w := by
  refine .invoke fun w₁ h₁ _ ↦ ⟨hg w₁ (ho.others h₁), fun o w₂ r hr _ ↦ ?_⟩
  have ho₁ := ho.others h₁
  rcases syncDeviceBans_cases (hx o w₁ w₂ r hr) with ⟨henf, hh⟩ | ⟨henf, hh⟩
  · refine ⟨hh ▸ (ho₁.mono fun _ ↦ .inl).note (.inr rfl), ?_⟩
    rw [henf, hh]
    exact ⟨fun _ ↦ .head _, fun _ ↦ rfl⟩
  · change Synced call event (f r).enforced w₂.history
    rw [henf, hh]
    exact .of_calm ho₁ he

theorem enforce_ensures {sync : Handler DeviceBanSyncResult}
    (hs : ∀ s' w', Adds (fun e ↦ e.1 ≠ call) w.history w'.history →
      (logic isolatedDeviceUuid cloneIsolation).Ensures call sync Q E s' w')
    (hq : ∀ r s' w', r.enforced = false → Adds (fun e ↦ e.1 ≠ call) w.history w'.history →
      Q r s' w') :
    (logic isolatedDeviceUuid cloneIsolation).Ensures call (enforce sync) Q E s w := by
  refine .bind (.tryCatch (.bind (.invoke fun w₁ h₁ _ ↦ ⟨trivial, fun o w₂ permitted hx _ ↦ ?_⟩)))
  obtain ⟨rfl, -⟩ := Prod.mk.inj hx
  rcases permitted with failure | permitted
  · exact .pure (.pure (hq _ _ w₁ rfl h₁))
  · refine .pure ?_
    cases permitted with
    | false => exact .pure (hq _ _ w₁ rfl h₁)
    | true => exact hs _ w₁ h₁

theorem enforce_synced {sync : Handler DeviceBanSyncResult} (he : ¬event.Calm)
    (ho : Own call Event.Calm w.history)
    (hs : ∀ s' w', Own call Event.Calm w'.history →
      (logic isolatedDeviceUuid cloneIsolation).Ensures call sync
        (fun r _ w' ↦ Synced call event r.enforced w'.history) E s' w') :
    (logic isolatedDeviceUuid cloneIsolation).Ensures call (enforce sync)
      (fun r _ w' ↦ Synced call event r.enforced w'.history) E s w := by
  refine enforce_ensures (fun s' w' ha ↦ hs s' w' (ho.others ha)) fun r s' w' hr ha ↦ ?_
  rw [hr]
  exact .of_calm (ho.others ha) he

theorem ban_synced (ho : Own call Event.Calm w.history) :
    (logic isolatedDeviceUuid cloneIsolation).Ensures call (enforce (ask (.ban uuid deviceId)))
      (fun r _ w' ↦ Synced call (.banned uuid deviceId) r.enforced w'.history) E s w := by
  refine enforce_synced id ho fun s' w' ho' ↦ ?_
  exact sync_ensures (c := .ban uuid deviceId) (f := id)
    (fun o w₁ w₂ r hx ↦ map_some_inj hx)
    (fun w'' ho'' u saved hm ↦ ho'' _ hm) id ho'

theorem unban_synced (ho : Own call Event.Calm w.history) :
    (logic isolatedDeviceUuid cloneIsolation).Ensures call (enforce (ask (.unban uuid deviceId)))
      (fun r _ w' ↦ Synced call (.lifted uuid deviceId) r.enforced w'.history) E s w := by
  refine enforce_synced id ho fun s' w' ho' ↦ ?_
  exact sync_ensures (c := .unban uuid deviceId) (f := id)
    (fun o w₁ w₂ r hx ↦ map_some_inj hx)
    (fun w'' ho'' u saved hm ↦ ho'' _ hm) id ho'

theorem remembered {α : Type} {p : Handler α} {Q : α → Unit → World → Prop} {e : Call × Event}
    (hp : (logic isolatedDeviceUuid cloneIsolation).Ensures call p Q E s w) (he : e ∈ w.history) :
    (logic isolatedDeviceUuid cloneIsolation).Ensures call p
      (fun a s' w' ↦ e ∈ w'.history ∧ Q a s' w') (fun failure s' w' ↦
        e ∈ w'.history ∧ E failure s' w') s w :=
  .frame (P := fun w' ↦ e ∈ w'.history) (fun _ _ hr ↦ Adds.mem hr)
    (fun _ o _ hg ↦ (exec_moves o hg).adds.mem) hp he

/-- The release of an id leaves no event. -/
theorem release_ensures {Q : Option DeviceBanSyncResult → Unit → World → Prop} {condition : Bool}
    (hq : ∀ r s' w', Adds (fun e ↦ e.1 ≠ call) w.history w'.history → Q r s' w') :
    (logic isolatedDeviceUuid cloneIsolation).Ensures call
      (enforceIf condition (ask .releaseDeviceId)) Q E s w := by
  cases condition with
  | false => exact .pure (hq _ _ w (.refl _))
  | true =>
    refine .map (enforce_ensures (fun s' w' ha ↦ ?_) fun r s' w' _ ha ↦ hq _ s' w' ha)
    refine .invoke fun w₁ h₁ _ ↦ ⟨trivial, fun o w₂ r hx _ ↦ ?_⟩
    obtain ⟨rfl, -⟩ := Prod.mk.inj hx
    exact hq _ _ w₁ (ha.trans h₁)

theorem followUp_ensures {protocolBan releaseId : Bool} (ho : Own call Event.Calm w.history) :
    (logic isolatedDeviceUuid cloneIsolation).Ensures call
      (followUp uuid deviceId protocolBan releaseId) (fun _ _ w' ↦ Settled call w'.history)
      (fun _ _ w' ↦ Settled call w'.history) s w := by
  have hban : (logic isolatedDeviceUuid cloneIsolation).Ensures call
      (enforceIf (protocolBan && deviceId ≠ "") (ask (.ban uuid deviceId)))
      (fun r _ w' ↦ Synced call (.banned uuid deviceId) (enforced r) w'.history)
      (fun _ _ w' ↦ Settled call w'.history) s w := by
    unfold enforceIf
    split
    · exact .map (ban_synced ho)
    · exact .pure (.of_calm ho id)
  refine .bind (hban.mono (fun protocolEnforcement s₁ w₁ hs₁ ↦ ?_) fun _ _ _ h ↦ h)
  refine .bind (release_ensures fun idRelease s₂ w₂ h₂ ↦ ?_)
  have hs₂ := hs₁.others h₂
  dsimp only
  split
  · rename_i hempty
    refine .pure (.of_calm fun event hm ↦ ?_)
    rcases hs₂.own event hm with hcalm | rfl
    · exact hcalm
    · have henf := hs₂.iff.mpr hm
      simp [TombstonePatch.isEmpty, henf] at hempty
  · refine .bind (.invoke fun w₃ h₃ _ ↦ ?_)
    have hs₃ := hs₂.others h₃
    refine ⟨⟨fun u saved hm ↦ ?_, fun u d hm ↦ ?_, ?_⟩, fun o w₄ r hx _ ↦ ?_⟩
    · rcases hs₃.own _ hm with hcalm | he
      · exact hcalm
      · cases he
    · rcases hs₃.own _ hm with hcalm | he
      · exact hcalm.elim
      · cases he
        rfl
    · refine hs₃.iff.trans ⟨fun hm ↦ ⟨deviceId, hm⟩, fun ⟨d, hm⟩ ↦ ?_⟩
      rcases hs₃.own _ hm with hcalm | he
      · exact hcalm.elim
      · cases he
        exact hm
    · have hsettled : Settled call w₄.history := by
        obtain ⟨saved, hh⟩ := patchTombstone_history (map_some_inj hx)
        refine ⟨fun _ _ _ ↦ ⟨uuid, saved, hh ▸ .head _⟩, fun u d hm ↦ ?_⟩
        rcases List.mem_cons.mp (hh ▸ hm) with he | hm
        · cases he
        · rcases hs₃.own _ hm with hcalm | he
          · exact hcalm.elim
          · cases he
      cases r with
      | error failure => exact hsettled
      | ok _ => exact .pure hsettled

theorem deleteDevice_ensures {actorGuid : String} {protocolBan releaseId : Bool}
    (ho : Own call Event.Calm w.history) :
    (logic isolatedDeviceUuid cloneIsolation).Ensures call
      (deleteDevice uuid actorGuid protocolBan releaseId) (fun _ _ w' ↦ Settled call w'.history)
      (fun _ _ w' ↦ Settled call w'.history) s w := by
  have haccess : Within isolatedDeviceUuid cloneIsolation call Event.Calm
      (invoke (.assertDeviceAccess uuid) fun reply ↦ reply : Handler _) :=
    .invoke (fun _ ↦ False.elim) fun _ ↦ trivial
  refine .bind (haccess.ensures (fun found s₁ w₁ h₁ ↦ ?_) fun _ _ w₁ h₁ ↦
    .of_calm (ho.grow h₁))
  obtain ⟨scope, peer⟩ := found
  refine .bind (Within.ensures (P := Event.Calm) (.tryCatch
    (.invoke (fun event he ↦ ?_) fun _ ↦ trivial) fun failure ↦ ?_) (fun _ s₂ w₂ h₂ ↦ ?_)
    fun _ _ w₂ h₂ ↦ .of_calm ((ho.grow h₁).grow h₂))
  · rw [he]
    trivial
  · split
    · exact .bind haccess fun _ ↦ .throw
    · exact .throw
  · exact followUp_ensures ((ho.grow h₁).grow h₂)

theorem Answered.adds {h h' : History} {P : Call × Event → Prop} (ha : Answered h call uuid)
    (hh : Adds P h h') : Answered h' call uuid := by
  obtain ⟨deviceId, banned, hf, hl⟩ := ha
  exact ⟨deviceId, banned, hh.mem hf, fun hb hd ↦ hh.mem (hl hb hd)⟩

theorem reenroll_ensures {tombstone : DeviceTombstone} {result : Option DeviceBanSyncResult}
    {d : String} (ho : Own call (fun e ↦ e.Calm ∨ e = .lifted uuid d) w.history)
    (ha : Answered w.history call uuid) :
    (logic isolatedDeviceUuid cloneIsolation).Ensures call (reenroll tombstone uuid result)
      (fun _ _ w' ↦ Settled call w'.history) (fun _ _ w' ↦ Settled call w'.history) s w := by
  refine .bind (release_ensures fun idRelease s₁ w₁ h₁ ↦ ?_)
  refine .bind (.invoke fun w₂ h₂ _ ↦
    ⟨⟨fun u deviceId hm ↦ ?_, (ha.adds h₁).adds h₂⟩, fun o w₃ r hx _ ↦ ?_⟩)
  · rcases (ho.others h₁).others h₂ _ hm with hcalm | he
    · exact hcalm.elim
    · cases he
      rfl
  · have hsettled : Settled call w₃.history := by
      obtain ⟨saved, hh⟩ := removeTombstone_history (map_some_inj hx)
      refine ⟨fun u deviceId hm ↦ ?_, fun _ _ _ ↦ ⟨uuid, saved, hh ▸ .head _⟩⟩
      rcases List.mem_cons.mp (hh ▸ hm) with he | hm
      · cases he
      · rcases (ho.others h₁).others h₂ _ hm with hcalm | he
        · exact hcalm.elim
        · cases he
    cases r with
    | error failure => exact hsettled
    | ok _ => exact .pure hsettled

theorem restoreTombstone_ensures (ho : Own call Event.Calm w.history) :
    (logic isolatedDeviceUuid cloneIsolation).Ensures call (restoreTombstone uuid)
      (fun _ _ w' ↦ Settled call w'.history) (fun _ _ w' ↦ Settled call w'.history) s w := by
  have hscope : Within isolatedDeviceUuid cloneIsolation call Event.Calm
      (invoke .assertGlobalDeleteScope fun reply ↦ reply : Handler Unit) :=
    .invoke (fun _ ↦ False.elim) fun _ ↦ trivial
  refine .bind (hscope.ensures (fun _ s₁ w₁ h₁ ↦ ?_) fun _ _ w₁ h₁ ↦ .of_calm (ho.grow h₁))
  refine .bind (.invoke fun w₂ h₂ _ ↦ ⟨trivial, fun o w₃ r hx _ ↦ ?_⟩)
  have ho₂ := (ho.grow h₁).others h₂
  rcases findTombstone_cases (map_some_inj hx) with ⟨rfl, -, rfl⟩ | ⟨tombstone, rfl, -, rfl⟩
  · exact .throw (.of_calm (ho₂.note (show Event.Calm (.cleared uuid) from trivial)))
  have ho₃ : Own call Event.Calm
      (w₂.note call (.found uuid tombstone.deviceId tombstone.banned)).history :=
    ho₂.note (show Event.Calm (.found ..) from trivial)
  dsimp only [Logic.Settles]
  split
  · refine .bind ((remembered (unban_synced ho₃) (.head _)).mono
      (fun result s₄ w₄ ⟨hf₄, hs₄⟩ ↦ ?_) fun _ _ _ h ↦ h.2)
    split
    · rename_i henf
      exact reenroll_ensures hs₄.own ⟨_, _, hf₄, fun _ _ ↦ hs₄.iff.mp henf⟩
    · rename_i henf
      refine .pure (.of_calm fun event hm ↦ ?_)
      rcases hs₄.own event hm with hcalm | rfl
      · exact hcalm
      · exact absurd (hs₄.iff.mpr hm) henf
  · rename_i hcond
    refine reenroll_ensures (d := "") (ho₃.mono fun _ ↦ .inl) ⟨_, _, .head _, fun hb hd ↦ ?_⟩
    exact absurd (by simp [hb, hd]) hcond

end Deletion

theorem Within.settles {p : Handler Unit} (ho : Own call Event.Calm w.history)
    (hp : Within isolatedDeviceUuid cloneIsolation call Event.Calm p) :
    (logic isolatedDeviceUuid cloneIsolation).Ensures call p
      (fun _ _ w' ↦ Settled call w'.history) (fun _ _ w' ↦ Settled call w'.history) s w :=
  hp.ensures (fun _ _ _ h ↦ .of_calm (ho.grow h)) fun _ _ _ h ↦ .of_calm (ho.grow h)

theorem serve_ensures {request : Request} (ho : Own call Event.Calm w.history) :
    (logic isolatedDeviceUuid cloneIsolation).Ensures call
      (serve isolatedDeviceUuid cloneIsolation request)
      (fun _ _ w' ↦ Settled call w'.history) (fun _ _ w' ↦ Settled call w'.history) s w := by
  cases request with
  | heartbeat data => exact handleHeartbeat_within.settles ho
  | sysinfo dto => exact (createSysinfo_within.bind fun _ ↦ .pure).settles ho
  | flush => exact flush_within.settles ho
  | deleteDevice guid actorGuid protocolBan releaseId =>
    exact .bind ((deleteDevice_ensures ho).mono (fun _ _ _ h ↦ h) fun _ _ _ h ↦ h)
  | restoreTombstone uuid actorGuid =>
    exact .bind ((restoreTombstone_ensures ho).mono (fun _ _ _ h ↦ h) fun _ _ _ h ↦ h)
  | lateWrite index =>
    refine Within.settles ho (.ask (fun event he ↦ ?_) fun _ ↦ trivial)
    obtain ⟨ids, rfl⟩ := he
    trivial

/-- Every request that ends has followed up what it did at the servers. -/
theorem delivers (isolatedDeviceUuid : String → String → String) (cloneIsolation : Bool) :
    (logic isolatedDeviceUuid cloneIsolation).Delivers fun call w ↦ Settled call w.history := by
  intro call w p _ ha
  obtain ⟨hnew, rfl⟩ := ha
  refine Logic.Wp.bind (Logic.Wp.mono (serve_ensures (s := ())
    fun event hm ↦ (hnew event hm).elim) ?_)
  rintro ⟨_ | a, s⟩ w' h
  · exact h
  · exact h

theorem stable_settled : (logic isolatedDeviceUuid cloneIsolation).Stable
    fun call w ↦ Settled call w.history :=
  fun _ _ _ hr hs ↦ hs.others hr

end RustdeskConsole.Devices
