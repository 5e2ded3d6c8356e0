import RustdeskConsole.Devices.Handlers

namespace RustdeskConsole.Devices

open Effects Effects.History Function

/-- No device is both registered and deleted. -/
def World.Separate (w : World) : Prop := ∀ uuid, w.peers uuid = none ∨ w.tombstones uuid = none

theorem separate_iff {w : World} :
    w.Separate ↔ ∀ uuid ∈ w.ledger.live, w.ledger.deleted uuid = none := by
  refine forall_congr' fun uuid ↦ ?_
  rw [ledger_deleted_eq_none]
  cases hp : w.peers uuid <;> simp [World.ledger, hp]

/-- No heartbeat registers a device whose deletion overtook it. -/
def Timely (cfg cfg' : Config Call Command Reply World) : Prop :=
  ∀ call uuid, cfg'.world.history = (call, .registered uuid) :: cfg.world.history →
    ¬Overtaken cfg.world.history call uuid

section Ledger

variable {l : Ledger} {h : History} {call : Call} {event : Event}

theorem separate_after (hs : Sound l h) (ha : l.Allows h call event)
    (hl : ∀ uuid ∈ l.live, l.deleted uuid = none) :
    (∀ uuid ∈ (l.after h call event).live, (l.after h call event).deleted uuid = none) ↔
      ∀ uuid, event = .registered uuid → ¬Overtaken h call uuid := by
  cases event with
  | registered uuid =>
    have hiff : l.deleted uuid = none ↔ ¬Overtaken h call uuid := by
      rw [hs.overtaken_iff ha, ne_eq, not_not]
    constructor
    · intro hall u hu
      cases hu
      exact hiff.mp (hall uuid (Set.mem_insert ..))
    · intro hall u hu
      rcases hu with rfl | hu
      · exact hiff.mpr (hall u rfl)
      · exact hl u hu
  | deleted uuid deviceId =>
    refine ⟨fun _ _ ↦ (by simp), fun _ u hmem ↦ ?_⟩
    obtain ⟨hu, hne⟩ : u ∈ l.live ∧ u ≠ uuid := hmem
    simpa only [Ledger.after, update_of_ne hne] using hl u hu
  | removed uuid saved =>
    refine ⟨fun _ _ ↦ (by simp), fun _ u hu ↦ ?_⟩
    cases saved with
    | false => exact hl u hu
    | true =>
      by_cases hne : u = uuid
      · rw [hne]
        exact update_self ..
      · simpa only [Ledger.after, update_of_ne hne] using hl u hu
  | patched uuid saved =>
    refine ⟨fun _ _ ↦ (by simp), fun _ u hu ↦ ?_⟩
    cases saved with
    | false => exact hl u hu
    | true => exact hl u hu
  | _ => exact ⟨fun _ _ ↦ (by simp), fun _ ↦ hl⟩

end Ledger

section Runs

variable {isolatedDeviceUuid : String → String → String} {cloneIsolation : Bool} {w₀ : World}
  {cfg cfg' : Config Call Command Reply World}

theorem reached (h₀ : w₀.history = [])
    (hr : (machine isolatedDeviceUuid cloneIsolation).Run (Machine.idle w₀) cfg) :
    (logic isolatedDeviceUuid cloneIsolation).Leaves (fun call w ↦ Settled call w.history) cfg := by
  refine Logic.Leaves.run stable_settled (delivers _ _) (Logic.leaves_idle ?_) hr
  change Sound w₀.ledger w₀.history
  rw [h₀]
  exact sound_nil

/-- A step that moves the ledger is an event that its call was allowed to leave. -/
theorem moves_of_step
    (hL : (logic isolatedDeviceUuid cloneIsolation).Leaves
      (fun call w ↦ Settled call w.history) cfg)
    (hs : (machine isolatedDeviceUuid cloneIsolation).Step cfg cfg') :
    (cfg'.world.history = cfg.world.history ∧ cfg'.world.ledger = cfg.world.ledger) ∨
      ∃ call event, cfg.world.ledger.Allows cfg.world.history call event ∧
        cfg'.world.history = (call, event) :: cfg.world.history ∧
        cfg'.world.ledger = cfg.world.ledger.after cfg.world.history call event := by
  rcases hL.step_cases hs with hw | ⟨call, c, o, hg, hw⟩
  · rw [hw]
    exact .inl ⟨rfl, rfl⟩
  · rw [hw]
    cases exec_moves o hg with
    | still hh hl => exact .inl ⟨hh, hl⟩
    | logs event _ ha hh hl => exact .inr ⟨call, event, ha, hh, hl⟩

theorem separate_step (h₀ : w₀.history = [])
    (hr : (machine isolatedDeviceUuid cloneIsolation).Run (Machine.idle w₀) cfg)
    (hs : (machine isolatedDeviceUuid cloneIsolation).Step cfg cfg') (hd : cfg.world.Separate) :
    cfg'.world.Separate ↔ Timely cfg cfg' := by
  have hL := reached h₀ hr
  rcases moves_of_step hL hs with ⟨hh, hl⟩ | ⟨call, event, ha, hh, hl⟩
  · refine ⟨fun _ _ _ hc ↦ ?_, fun _ ↦ ?_⟩
    · exact absurd (hh.symm.trans hc) (List.cons_ne_self _ _).symm
    · rw [separate_iff, hl]
      exact separate_iff.mp hd
  · rw [separate_iff, hl, separate_after hL.1 ha (separate_iff.mp hd)]
    constructor
    · intro hall other uuid hc
      obtain ⟨heq, -⟩ := List.cons_eq_cons.mp (hh.symm.trans hc)
      obtain ⟨rfl, he⟩ := Prod.mk.inj heq
      exact hall uuid he
    · intro ht uuid he
      exact ht call uuid (he ▸ hh)

/-- A deleted device stays deleted as long as no heartbeat is overtaken by the
deletion of the device it is about to register, and no longer. -/
theorem deletion_stands (h₀ : w₀.history = []) (hd : w₀.Separate)
    (hr : (machine isolatedDeviceUuid cloneIsolation).RunWhere Timely (Machine.idle w₀) cfg) :
    cfg.world.Separate ∧ ∀ cfg', (machine isolatedDeviceUuid cloneIsolation).Step cfg cfg' →
      (cfg'.world.Separate ↔ Timely cfg cfg') := by
  have hsep : cfg.world.Separate := by
    induction hr with
    | refl => exact hd
    | tail hrun hs ih => exact (separate_step h₀ (Machine.RunWhere.run hrun) hs.1 ih).mpr hs.2
  exact ⟨hsep, fun cfg' hs ↦ separate_step h₀ hr.run hs hsep⟩

end Runs

section Sample

def emptyWorld : World := ⟨fun _ ↦ none, fun _ ↦ none, fun _ ↦ none, .empty, false, [], [], []⟩

def sampleMachine : Machine Call Command Reply Choice World := machine (fun uuid id ↦ uuid ++ id) false

/-- Everything succeeds, and everybody may do everything. -/
def sampleChoice : Choice where
  now := 0
  permission := .ok ⟨true, []⟩
  canEnforce := .ok true
  ban := .applied
  release := ⟨true, none, none⟩
  deviceGroup := none
  outcome := .ok ()

def sampleFresh (call : Call) (w : World) : Bool := w.history.all fun e ↦ decide (e.1 ≠ call)

theorem sampleFresh_admits (call : Call) (w : World) (h : sampleFresh call w = true) :
    sampleMachine.admits call w (handler (fun uuid id ↦ uuid ++ id) false call.request) := by
  refine ⟨fun event hm ↦ ?_, rfl⟩
  have hne := List.all_eq_true.mp h _ hm
  simp at hne

/-- The calls take turns, each with so many commands. -/
def sampleSchedule (turns : List (Call × ℕ)) (w : World) : Config Call Command Reply World :=
  sampleMachine.schedule (fun call ↦ handler (fun uuid id ↦ uuid ++ id) false call.request)
    sampleFresh (turns.map fun t ↦ (t.1, List.replicate t.2 sampleChoice)) (Machine.idle w)

def sampleHeartbeat (index : ℕ) : Call := ⟨index, .heartbeat ⟨"1", "u", 0, 0⟩⟩

def sampleDelete : Call := ⟨2, .deleteDevice "u" "admin" false false⟩

/-- Two heartbeats of one new device: the first one waits once it has found no
tombstone, the second one registers the device, an operator deletes it, and the
first heartbeat goes on. -/
def sampleResurrected : Config Call Command Reply World :=
  sampleSchedule [(sampleHeartbeat 0, 2), (sampleHeartbeat 1, 3), (sampleDelete, 2),
    (sampleHeartbeat 0, 1)] emptyWorld

/-- Nothing but a save after the tombstone check is needed to bring a deleted
device back. -/
theorem device_resurrected : ∃ w₀ cfg, w₀.history = [] ∧ w₀.Separate ∧
    sampleMachine.Run (Machine.idle w₀) cfg ∧ ¬cfg.world.Separate := by
  refine ⟨emptyWorld, sampleResurrected, rfl, fun _ ↦ .inl rfl,
    Machine.schedule_run sampleFresh_admits _, fun hs ↦ ?_⟩
  have hlive : (sampleResurrected.world.peers "u").isSome = true := by decide +kernel
  have hdead : (sampleResurrected.world.tombstones "u").isSome = true := by decide +kernel
  rcases hs "u" with h | h
  · rw [h] at hlive
    cases hlive
  · rw [h] at hdead
    cases hdead

/-- No registration comes after a deletion. -/
def promptly (w w' : World) : Bool :=
  w'.history = w.history || match w'.history with
    | (_, .registered _) :: _ => w.history.all fun e ↦
        match e.2 with
        | .deleted .. => false
        | _ => true
    | _ => true

theorem timely_of_promptly (cfg cfg' : Config Call Command Reply World)
    (h : promptly cfg.world cfg'.world = true) : Timely cfg cfg' := by
  rintro call uuid hh ⟨later, e, earlier, he, ⟨⟨deviceId, hd⟩, -⟩, -⟩
  rw [promptly, hh, decide_eq_false (List.cons_ne_self _ _), Bool.false_or] at h
  have hm := List.all_eq_true.mp h e (by simp [he])
  rw [hd] at hm
  cases hm

/-- A heartbeat that comes after the deletion is ignored. -/
theorem sample_deletion_stands : (sampleSchedule [(sampleHeartbeat 0, 3), (sampleDelete, 2),
    (sampleHeartbeat 1, 3)] emptyWorld).world.Separate :=
  (deletion_stands rfl (fun _ ↦ .inl rfl) (Machine.schedule_runWhere timely_of_promptly
    (fun _ ↦ by simp [promptly]) sampleFresh_admits _ (by decide +kernel))).1

end Sample

end RustdeskConsole.Devices
