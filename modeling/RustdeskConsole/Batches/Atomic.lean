import RustdeskConsole.Batches.Scope

namespace RustdeskConsole.Batches

open Collections Effects Effects.History Function
open Rbac (PermissionScope)
open Devices (Failure DeviceTombstone)

variable {scopeOf : String → String → PermissionScope} {w w' w₀ : World} {call : Call}
  {uuid : String} {cfg cfg' : Config Call Command Reply World}

section Runs

/-- Devices lie under their keys, and no operation is under way. -/
structure Starts (w : World) : Prop where
  keyed : ∀ uuid row, w.peers uuid = some row → row.uuid = uuid
  drafts : w.drafts = []
  entombed : w.entombed = []
  history : w.history = []

/-- What a call is about to commit: rows that were within its scope when it wrote
them and that nobody has touched since. It changes nothing at all unless it has
written every device that it goes on to write. -/
structure Scoped (scopeOf : String → String → PermissionScope) (call : Call) (w : World) :
    Prop where
  within : ∀ draft ∈ w.mine call, w.peers draft.uuid = some draft.before ∧
    inGroups (call.request.scope scopeOf) draft.before.deviceGroupGuid
  changed : ∀ uuid, (w.commit call).peers uuid ≠ w.peers uuid →
    ∃ draft ∈ w.mine call, draft.uuid = uuid
  all : (w.commit call).peers ≠ w.peers ∨ (w.commit call).tombstones ≠ w.tombstones →
    ∀ uuid ∈ selected call w.history, ∃ draft ∈ w.mine call, draft.uuid = uuid

/-- What one step does to the devices. -/
inductive Effect (scopeOf : String → String → PermissionScope) (w w' : World) : Prop
  | none : w'.peers = w.peers → w'.tombstones = w.tombstones → Effect scopeOf w w'
  | written (call : Call) (uuid : String) (data : PeerUpdate) :
    call.request = .write uuid data → w' = w.write call uuid data → Effect scopeOf w w'
  | registered (call : Call) (peer : Peer) :
    call.request = .register peer → w' = w.register call peer → Effect scopeOf w w'
  | committed (call : Call) (w₁ : World) : (w₁ = w ∨ ∃ cond f, Drafts call cond f w w₁) →
    Scoped scopeOf call w₁ → w' = w₁.commit call → Effect scopeOf w w'

theorem draft_of_changed (hn : (w.commit call).peers uuid ≠ w.peers uuid) :
    ∃ draft ∈ w.mine call, draft.uuid = uuid := by
  cases hd : w.draftOf call uuid with
  | none =>
    have heq : (w.commit call).peers uuid = w.peers uuid := by
      change (w.draftOf call uuid).elim (w.peers uuid) (·.after) = w.peers uuid
      rw [hd]
      rfl
    exact absurd heq hn
  | some draft => exact ⟨draft, mem_of_draftOf hd⟩

theorem tombstones_commit (ht : w.tombs call = []) : (w.commit call).tombstones = w.tombstones := by
  funext uuid
  have hnone : w.tombstoneOf call uuid = none := by
    rw [World.tombstoneOf, Option.map_eq_none_iff, List.find?_eq_none]
    intro e he hc
    simp only [Bool.and_eq_true, decide_eq_true_eq] at hc
    have hmem : e ∈ w.tombs call := List.mem_filter.mpr ⟨he, by simpa using hc.1⟩
    rw [ht] at hmem
    cases hmem
  change (w.tombstoneOf call uuid).elim (w.tombstones uuid) _ = w.tombstones uuid
  rw [hnone]
  rfl

theorem commit_scoped (hl : Locked w) (hr : Ready scopeOf call w) : Scoped scopeOf call w := by
  refine ⟨fun draft hd ↦ ⟨hl.rows draft (List.mem_of_mem_filter hd), ?_⟩,
    fun uuid hn ↦ draft_of_changed hn, fun hn ↦ ?_⟩
  · rcases hr with hb | ⟨hwithin, -⟩
    · rw [hb.mine] at hd
      cases hd
    · exact hwithin draft hd
  · rcases hr with hb | ⟨-, hall⟩
    · obtain ⟨uuid, hne⟩ := Function.ne_iff.mp (hn.resolve_right
        (not_not.mpr (tombstones_commit hb.tombs)))
      obtain ⟨draft, hd, -⟩ := draft_of_changed hne
      rw [hb.mine] at hd
      cases hd
    · exact hall

theorem updateNow_scoped {cond : Where} {data : PeerUpdate} {w₁ : World} (hl : Locked w)
    (hg : guard scopeOf call (.updateNow cond data) w)
    (hd : Drafts call cond (fun row ↦ some (data.apply row)) w w₁) :
    Scoped scopeOf call w₁ := by
  obtain ⟨hs, hb, uuid, huuids, hsel⟩ := hg
  have hl₁ : Locked w₁ := hl.draft (fun row row' h ↦ by cases h; rfl) hb.mine hd
  have hdrafted := hd.drafted hb.mine hs
  refine ⟨fun draft hdraft ↦ ⟨hl₁.rows draft (List.mem_of_mem_filter hdraft),
    hdrafted.within draft hdraft⟩, fun u hn ↦ draft_of_changed hn, fun hn u hu ↦ ?_⟩
  have htombs : w₁.tombs call = [] := by
    rw [hd.world]
    exact hb.tombs
  obtain ⟨v, hv⟩ := Function.ne_iff.mp (hn.resolve_right
    (not_not.mpr (tombstones_commit htombs)))
  obtain ⟨draft, hdraft, rfl⟩ := draft_of_changed hv
  refine ⟨draft, hdraft, ?_⟩
  rw [hd.mine hb.mine] at hdraft
  obtain ⟨row, hr, rfl⟩ := List.mem_map.mp hdraft
  have hrow := (mem_matched.mp hr).1
  rw [huuids, List.mem_singleton] at hrow
  rw [hd.world] at hu
  exact hrow.trans (hsel u hu).symm

theorem Drafts.effect {cond : Where} {f : Peer → Option Peer} (hd : Drafts call cond f w w') :
    Effect scopeOf w w' := by
  rw [hd.world]
  exact .none rfl rfl

theorem exec_effect {c : Command} {o : Choice} (hl : Locked w) (hg : guard scopeOf call c w) :
    Effect scopeOf w (exec scopeOf call c o w).1 := by
  cases c with
  | update cond data =>
    rcases hd : w.draft call cond (fun row ↦ some (data.apply row)) o.outcome with ⟨w', x⟩
    rw [exec, hd]
    rcases draft_cases hd with ⟨rfl, -⟩ | ⟨-, hdrafts⟩
    · exact .none rfl rfl
    · exact hdrafts.effect
  | delete cond =>
    rcases hd : w.draft call cond (fun _ ↦ none) o.outcome with ⟨w', x⟩
    rw [exec, hd]
    rcases draft_cases hd with ⟨rfl, -⟩ | ⟨-, hdrafts⟩
    · exact .none rfl rfl
    · exact hdrafts.effect
  | entomb tombstone =>
    change Effect scopeOf w (w.entomb call tombstone o.outcome).1
    cases o.outcome with
    | error failure => exact .none rfl rfl
    | ok u => exact .none rfl rfl
  | commit =>
    rw [exec]
    split
    · exact .none rfl rfl
    · exact .committed call w (.inl rfl) (commit_scoped hl hg) rfl
  | updateNow cond data =>
    rcases hu : updateNow w call cond data o.outcome with ⟨w', x⟩
    rw [exec, hu]
    rcases updateNow_cases hu with ⟨rfl, -⟩ | ⟨w₁, -, hd, rfl⟩
    · exact .none rfl rfl
    · exact .committed call w₁ (.inr ⟨_, _, hd⟩) (updateNow_scoped hl hg hd) rfl
  | write uuid data => exact .written call uuid data hg rfl
  | register peer => exact .registered call peer hg rfl
  | _ => exact .none rfl rfl

theorem admissible : (logic scopeOf).Admissible := by
  rintro call w p - ⟨hnew, hdrafts, htombs, rfl⟩
  have hb : Blank call w := by
    refine ⟨List.filter_eq_nil_iff.mpr fun draft hd hc ↦ ?_,
      List.filter_eq_nil_iff.mpr fun e he hc ↦ ?_⟩
    · exact hdrafts draft hd (by simpa using hc)
    · exact htombs e he (by simpa using hc)
  exact Logic.Wp.bind (Logic.Wp.mono (serve_clean () w hb) fun _ _ _ ↦ trivial)

theorem locked_start (h₀ : Starts w₀) : Locked w₀ where
  keyed := h₀.keyed
  rows draft hd := by
    rw [h₀.drafts] at hd
    cases hd
  drafted draft hd := by
    rw [h₀.drafts] at hd
    cases hd
  nodup := by
    rw [h₀.drafts]
    exact List.nodup_nil

/-- However the operations interleave, a step that changes devices is either
another operation's write or commits a batch that wrote within its scope. -/
theorem batches_scoped (h₀ : Starts w₀)
    (hr : (machine scopeOf).Run (Machine.idle w₀) cfg) (hs : (machine scopeOf).Step cfg cfg') :
    Effect scopeOf cfg.world cfg'.world := by
  have hv := (Logic.verified_idle (locked_start h₀)).run admissible hr
  rcases Logic.Leaves.step_cases hv hs with hw | ⟨call, c, o, hg, hw⟩
  · exact .none (congrArg World.peers hw) (congrArg World.tombstones hw)
  · rw [hw]
    exact exec_effect hv.1 hg

end Runs

section Sample

def sampleScope (_ _ : String) : PermissionScope := ⟨false, ["g"]⟩

def sampleMachine : Machine Call Command Reply Choice World := machine sampleScope

def samplePeer (uuid : String) (strategyGuid : Option String) : Peer :=
  ⟨uuid, uuid, none, some "g", strategyGuid, none, .active⟩

/-- Two devices of the group `g`, one of them bound to a strategy. -/
def samplePeers : String → Option Peer
  | "d1" => some (samplePeer "d1" (some "s"))
  | "d2" => some (samplePeer "d2" none)
  | _ => none

def sampleWorld : World := ⟨samplePeers, fun _ ↦ none, [], [], []⟩

theorem sample_starts : Starts sampleWorld := by
  refine ⟨fun uuid row hrow ↦ ?_, rfl, rfl, rfl⟩
  simp only [sampleWorld, samplePeers] at hrow
  split at hrow <;> cases hrow <;> rfl

def sampleChoice : Choice := ⟨.ok (), some "s", .ok ()⟩

def sampleFresh (call : Call) (w : World) : Bool :=
  w.history.all (fun e ↦ decide (e.1 ≠ call)) && w.drafts.all (fun d ↦ decide (d.call ≠ call)) &&
    w.entombed.all fun e ↦ decide (e.1 ≠ call)

theorem sampleFresh_admits (call : Call) (w : World) (h : sampleFresh call w = true) :
    sampleMachine.admits call w (handler call.request) := by
  simp only [sampleFresh, Bool.and_eq_true, List.all_eq_true, decide_eq_true_eq] at h
  exact ⟨fun event hm ↦ h.1.1 _ hm rfl, h.1.2, h.2, rfl⟩

def sampleSchedule (turns : List (Call × ℕ)) : Config Call Command Reply World :=
  sampleMachine.schedule (fun call ↦ handler call.request) sampleFresh
    (turns.map fun t ↦ (t.1, List.replicate t.2 sampleChoice)) (Machine.idle sampleWorld)

def sampleUnassign : Call := ⟨1, .unassignStrategy "s" ["d1", "d2"] "admin"⟩

/-- Another operation moves the device `d2` to the group `h`. -/
def sampleMove : Call := ⟨2, .write "d2" ⟨none, some (some "h"), none, none, none⟩⟩

/-- `d2` is moved after both devices were checked and before `d1` is written. -/
def sampleMoved : Config Call Command Reply World :=
  sampleSchedule [(sampleUnassign, 4), (sampleMove, 1)]

def sampleWritten : Config Call Command Reply World :=
  sampleMachine.resume sampleUnassign [sampleChoice] sampleMoved

def sampleCommitted : Config Call Command Reply World :=
  sampleMachine.resume sampleUnassign [sampleChoice] sampleWritten

theorem sample_run : sampleMachine.Run (Machine.idle sampleWorld) sampleMoved :=
  Machine.schedule_run sampleFresh_admits _

theorem sample_writes : sampleMachine.Step sampleMoved sampleWritten :=
  Machine.resume_step sampleChoice (by decide +kernel)

theorem sample_commits : sampleMachine.Step sampleWritten sampleCommitted :=
  Machine.resume_step sampleChoice (by decide +kernel)

theorem sample_scoped : Effect sampleScope sampleWritten.world sampleCommitted.world :=
  batches_scoped sample_starts (sample_run.tail sample_writes) sample_commits

theorem moved_unassigned : ¬ ∀ (scopeOf : String → String → PermissionScope) (w₀ : World)
    (cfg cfg₁ cfg₂ cfg₃ : Config Call Command Reply World) (call : Call), Starts w₀ →
      (machine scopeOf).Run (Machine.idle w₀) cfg → (machine scopeOf).Step cfg cfg₁ →
        (machine scopeOf).Run cfg₁ cfg₂ → (machine scopeOf).Step cfg₂ cfg₃ →
          cfg.world.mine call = [] → cfg₁.world.mine call ≠ [] →
            cfg₃.world.history = (call, .committed) :: cfg₂.world.history →
              (∃ peer ∈ lastChecked call cfg.world.history, ∀ row,
                cfg.world.peers peer.uuid = some row →
                  ¬inGroups (call.request.scope scopeOf) row.deviceGroupGuid) →
                cfg₃.world.peers = cfg₂.world.peers := by
  intro hall
  have hpeers := hall sampleScope sampleWorld sampleMoved sampleWritten sampleWritten
    sampleCommitted sampleUnassign sample_starts sample_run sample_writes .refl sample_commits
    (List.length_eq_zero_iff.mp (by decide +kernel))
    (fun hm ↦ absurd (congrArg List.length hm) (by decide +kernel)) (by decide +kernel)
    ⟨samplePeer "d2" none, by decide +kernel, fun row hrow ↦ ?_⟩
  · have hd1 : (sampleCommitted.world.peers "d1").map (·.strategyGuid) ≠
        (sampleWritten.world.peers "d1").map (·.strategyGuid) := by decide +kernel
    exact hd1 (by rw [hpeers])
  · have hd2 : sampleMoved.world.peers "d2" =
        some { samplePeer "d2" none with deviceGroupGuid := some "h" } := by decide +kernel
    cases hd2.symm.trans hrow
    decide

end Sample

end RustdeskConsole.Batches
